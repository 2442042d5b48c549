import DnsFixtures.Dns.Message

/-!
# Record data given as text

The presentation texts of the records whose data holds no domain name.  `security_records.py` has
the first two; the others stand in `_records` of `fresh_fixtures.py`.
-/

namespace DnsFixtures

open Dns

/-! ### `security_records.py` -/

def OPENPGPKEY : String :=
  "mQENBGqzHfwBCAC7khONhbLdUL4z1AvU9Kraiqbt4bsVae2WIdNXwA/5qROil6RpTHi+WqeHPe9xfqDoUrjatmrJ" ++
  "4g23jw8Mw4Dujk2lmLhSEXSbqo195QqJoFwo2poDdUkRf3cOeCwk88bwtQBZqzXTvbZ4bZlYid0BYyliiCo7vjDI" ++
  "kQYorYPwgnKgoMs9ZLIoG78j68mRooUyzgctnxVP1e8/khwumXun4glUy2gyCrGgSEOO4vDqum9EWA3GEV97doLY" ++
  "Jj2dmPQMv91XKfdGxQGXIiG5Fqmc8S7n/HI5i5bwi8sLGy30eOp5td0lNE85CjKibIAYFudNVq6udRWIJVnrfBmw" ++
  "DMVxABEBAAG0KUROUyBRQSBTeW50aGV0aWMgPGRucy1xYUBleGFtcGxlLmludmFsaWQ+iQFtBBMBCABXFiEE+hbq" ++
  "HZwddeZ/FoW2iDIeWN8Env8FAmqzHfwbFIAAAAAABAAObWFudTIsMi41KzEuMTIsMCwzAhsPBQsJCAcCAiICBhUK" ++
  "CQgLAgQWAgMBAh4HAheAAAoJEIgyHljfBJ7/oicIAJVS+ndX+dVvvVcOVOsl1w5SCbd87O9zBKwCy2n03BgHT2or" ++
  "zJovMiC5sL/JNWVv3rNc4Lqvj6v+yRC5j2+zxDDa+Tni2S0hwPV8BdSWv3tXzM+xYdy8eGT0Hcmzf9vAHCU4BP3U" ++
  "5vQNONqfr2U6eR8w0UETMwnKhyhOGm2cPY5C9sn0lGwjUhkq+5qhRvNxHl7/1eDS3MZ3J1tsopHGAfWzZuVvezpn" ++
  "VqNnXmVHLtzzDiTk2P3QS5lF0JXKmyIZpU7MDlNEF1n+QDMmAGbB++fV0hiTdnOb07fjyknwUMxp6b7WKdo8lSkw" ++
  "AfhJdGNa7/8Pn6qV99H1fDNpYYljfb4="

def SMIMEA : String :=
  "3 1 1 b24fd998ca466289386fd15e523a162f5ec09c1f9fa7fddffd7e7fc7c148fbd6"

/-! ### Texts of `_records` -/

/-- The parameters behind the target of the service-mode SVCB and HTTPS records. -/
def serviceParams : String :=
  "alpn=\"h2,h3\" port=8443 ipv4hint=192.0.2.40 ipv6hint=2001:db8::40"

def hinfoText : String := "\"x86_64\" \"test-fixture\""

def locText : String := "37 47 0.0 N 122 24 0.0 W 10m 1m 10000m 10m"

def naptrText : String := "100 10 \"U\" \"E2U+sip\" \"!^.*$!sip:test@example.invalid!\" ."

def certText : String := "65280 0 0 AQIDBA=="

def sshfpText : String := "1 1 123456789abcdef67890123456789abcdef67890"

def tlsaText : String := "3 1 1 " ++ String.join (List.replicate 32 "01")

def uriText : String := "10 1 \"https://example.invalid/fixture\""

def caaText : String := "0 issue \"ca.invalid\""

/-- The type `TYPE65280`. -/
def TYPE65280 : UInt16 := 65280

def unknownText : String := "\\# 4 DEADBEEF"

/-- Every text that is handed to dnspython's record parsers, with its type. -/
def fixtureTexts : List (UInt16 × String) :=
  [(RRType.SVCB, serviceParams), (RRType.HTTPS, serviceParams), (RRType.HINFO, hinfoText),
    (RRType.LOC, locText), (RRType.NAPTR, naptrText), (RRType.CERT, certText),
    (RRType.SSHFP, sshfpText), (RRType.TLSA, tlsaText), (RRType.OPENPGPKEY, OPENPGPKEY),
    (RRType.SMIMEA, SMIMEA), (RRType.URI, uriText), (RRType.CAA, caaText),
    (TYPE65280, unknownText)]

end DnsFixtures
