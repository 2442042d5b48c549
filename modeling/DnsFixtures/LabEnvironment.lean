import DnsFixtures.RenderRecursion
import DnsFixtures.Shell.Lines

/-!
# `lab.sh`: the environment

What `lab.sh` takes from its environment file, what it checks, and what `lab.sh environment` prints.  Variables and
their values are octet strings without NUL; of the variables only those of `LAB_VARIABLES` are modelled, not
the names that the script uses itself.

What `echo` makes of a backslash differs between shells, and is an argument.
-/

namespace DnsFixtures

open Dns

/-- The variables that are set, and their values. -/
abbrev Environment := Octets → Option Octets

/-- The names of the `case` in `load_lab_environment`. -/
def LAB_VARIABLES : List String :=
  ["DNS_PORT", "DNS_FAULT_PORT", "DNS_BIND_IPV4", "DNS_FAULT_BIND_IPV4", "DNS_BIND_IPV6",
    "DNS_UPSTREAMS", "DNS_ALLOWED_CLIENTS", "CHUNK_DELAY_MS", "STALL_SECONDS", "IO_TIMEOUT_SECONDS",
    "MAX_SESSIONS", "REQUIRE_IPV6"]

/-- `key` and `value` of a line; comments, empty lines and lines without `=` have none. -/
def lineAssignment (line : Octets) : Option (Octets × Octets) :=
  if line.head? = some 35 then none else Shell.cut 61 line

/-- `[ "${KEY+x}" ] || export KEY="$value"`, for the keys of the list. -/
def exportVariable (env : Environment) (a : Octets × Octets) : Environment :=
  Shell.assign (· ∈ LAB_VARIABLES.map textOctets) env a

/-- The loop of `load_lab_environment` over the lines of the file. -/
def loadLoop : List Octets → Environment → Environment
  | [], env => env
  | line :: rest, env =>
    match lineAssignment line with
    | none => loadLoop rest env
    | some a => loadLoop rest (exportVariable env a)

/-- `envFile` is what `$LAB_ENV_FILE` holds, if it is a regular file. -/
def loadLabEnvironment (envFile : Option Octets) (env : Environment) : Environment :=
  match envFile with
  | none => env
  | some text => loadLoop (Shell.lines 10 text) env

/-- `${NAME:-default}` -/
def expand (env : Environment) (name : String) (default : Octets) : Octets :=
  match env (textOctets name) with
  | none => default
  | some value => if value = [] then default else value

def effectiveDnsBindIpv4 (env : Environment) : Octets :=
  expand env "DNS_BIND_IPV4" (textOctets "127.0.0.1")

def effectiveDnsFaultBindIpv4 (env : Environment) : Octets :=
  expand env "DNS_FAULT_BIND_IPV4" (effectiveDnsBindIpv4 env)

/-- The failure is what is written to standard error; the status is 2 then.  The address of the
authoritative server is fixed. -/
def validateIpv4Publications (env : Environment) : Except Octets Unit :=
  let authoritativeAddress := textOctets "127.0.0.1"
  let faultAddress := substitution (effectiveDnsFaultBindIpv4 env ++ [10])
  let authoritativePort := expand env "DNS_PORT" (textOctets "5300")
  let faultPort := expand env "DNS_FAULT_PORT" (textOctets "53")
  if authoritativeAddress = faultAddress ∧ authoritativePort = faultPort then
    throw (textOctets ("configuration error: authoritative and fault proxy use the same IPv4 " ++
      "address and port: ") ++ authoritativeAddress ++ [58] ++ authoritativePort ++ [10])
  else return ()

/-- The arguments of `echo` in `print_environment`, name by name.  The two addresses come from a
command substitution. -/
def environmentEntries (env : Environment) : List (String × Octets) :=
  [("DNS_PORT", expand env "DNS_PORT" (textOctets "5300")),
    ("DNS_FAULT_PORT", expand env "DNS_FAULT_PORT" (textOctets "53")),
    ("DNS_UPSTREAMS", expand env "DNS_UPSTREAMS" []),
    ("DNS_ALLOWED_CLIENTS", expand env "DNS_ALLOWED_CLIENTS" (textOctets "127.0.0.1/32,::1/128")),
    ("DNS_BIND_IPV4", substitution (effectiveDnsBindIpv4 env ++ [10])),
    ("DNS_FAULT_BIND_IPV4", substitution (effectiveDnsFaultBindIpv4 env ++ [10])),
    ("DNS_BIND_IPV6", expand env "DNS_BIND_IPV6" (textOctets "::1")),
    ("CHUNK_DELAY_MS", expand env "CHUNK_DELAY_MS" (textOctets "50")),
    ("STALL_SECONDS", expand env "STALL_SECONDS" (textOctets "2")),
    ("IO_TIMEOUT_SECONDS", expand env "IO_TIMEOUT_SECONDS" (textOctets "5")),
    ("MAX_SESSIONS", expand env "MAX_SESSIONS" (textOctets "64")),
    ("REQUIRE_IPV6", expand env "REQUIRE_IPV6" (textOctets "0"))]

/-- `NAME=value` -/
def entryLine (entry : String × Octets) : Octets := textOctets entry.1 ++ 61 :: entry.2

/-- What `print_environment` writes. -/
def printEnvironment (echo : Octets → Octets) (env : Environment) : Octets :=
  (environmentEntries env).flatMap fun entry => echo (entryLine entry)

end DnsFixtures
