import DnsFixtures.Equiv.FrameStream
import DnsFixtures.Equiv.QueryEncoding
import DnsFixtures.Equiv.Reflection

/-!
# The probe and the fault proxy

What the probe of the smoke test sees of the TCP handler.  `observe_eq`: for a query that asks for a
scenario it reads the parts that `send_frame` writes, and its timeout expires exactly when the handler
keeps the connection.  `parseFrames_sentParts` parses these parts, a cut-off response and trailing octets
included, and `meets_row` compares them with the table.  So every row is accepted but `normal`
(`accepts_iff`): there the handler waits for another query until its own timeout, which is the longer
one.
-/

namespace DnsFixtures

open Dns

/-! ### Reads -/

theorem flatten_readChunks (written : List Octets) : (readChunks written).flatten = written.flatten := by
  induction written with
  | nil => rfl
  | cons part written ih =>
    rw [readChunks, List.flatMap_cons, List.flatten_append, flatten_slices (by decide),
      List.flatten_cons, ← ih]
    rfl

/-- Every write is seen in a read of its own. -/
theorem length_le_readChunks {written : List Octets} (hne : ∀ part ∈ written, part ≠ []) :
    written.length ≤ (readChunks written).length := by
  induction written with
  | nil => exact Nat.le_refl _
  | cons part written ih =>
    have hpos := List.length_pos_iff.mpr (hne part List.mem_cons_self)
    have hslices : 1 ≤ (slices 4096 part).length := by
      rw [slices, List.length_map, List.length_range]
      omega
    have hrest := ih fun part hpart => hne part (List.mem_cons_of_mem _ hpart)
    rw [readChunks, List.flatMap_cons, List.length_append, List.length_cons]
    rw [readChunks] at hrest
    omega

/-! ### The query -/

/-- However the request is cut, the stream is the frame. -/
theorem exists_requestParts {frame : Octets} (h : 3 ≤ frame.length) (pattern : RequestPattern) :
    ∃ parts, requestParts frame pattern = .ok parts ∧ parts.flatten = frame := by
  have hcut : ∀ {m n}, m ≤ n → frame.take m ++ ((frame.take n).drop m ++ frame.drop n) = frame := by
    intro m n hmn
    have htake : frame.take m = (frame.take n).take m := by rw [List.take_take, Nat.min_eq_left hmn]
    rw [htake, ← List.append_assoc, List.take_append_drop, List.take_append_drop]
  unfold requestParts
  rw [if_neg (Nat.not_lt.mpr h)]
  cases pattern with
  | whole => exact ⟨[frame], rfl, List.append_nil _⟩
  | splitPrefix =>
    refine ⟨_, rfl, ?_⟩
    rw [List.flatten_cons, List.flatten_cons, List.flatten_singleton]
    exact hcut (by decide)
  | splitBody =>
    refine ⟨_, rfl, ?_⟩
    rw [List.flatten_cons, List.flatten_cons, List.flatten_singleton]
    exact hcut (Nat.le_add_right _ _)
  | bytewise => exact ⟨_, rfl, flatten_map_singleton frame⟩

/-- **The probe's query** asks for the scenario. -/
theorem asksScenario_buildQuery {s : Scenario} {qtype : String} {id : UInt16} {query : Octets}
    (h : buildQuery (s.value ++ TRANSPORT_SUFFIX) qtype id = .ok query) :
    AsksScenario query (transportOwner s) s := by
  obtain ⟨kind, hkind⟩ := exists_probeType h
  obtain ⟨hname, rfl⟩ := (buildQuery_eq_ok_iff hkind).mp h
  have hparts : (nameParts (s.value ++ TRANSPORT_SUFFIX)).map partOctets = transportOwner s := by
    cases s <;> decide
  have hlower : foldCase (transportOwner s) = transportOwner s := by cases s <;> decide
  have hlabels := hname.queryLabels
  rw [hparts] at hlabels ⊢
  have hheader := readHeader_queryOctets (transportOwner s) kind id []
  have hopcode : ¬ hasFlag 0x0100 Flag.opcodeMask := by decide
  rw [List.append_nil] at hheader
  exact ⟨⟨_, hheader, hopcode⟩, ⟨[], hlabels.readsQuestion kind id⟩, spells_of_eq hlower⟩

/-! ### What a scenario sends -/

/-- What `parse_frames` makes of a response that a scenario sends. -/
def parsedParts (response : Octets) : Scenario → List Octets × Octets × Option Nat
  | .closeBeforeResponse | .stall => ([], [], none)
  | .closeAfterPrefix => ([], packU16 (UInt16.ofNat response.length), some response.length)
  | .closeMidBody =>
    ([], packU16 (UInt16.ofNat response.length) ++ response.take (response.length / 2),
      some response.length)
  | .lengthMismatch =>
    let declared := min 65535 (response.length + 16)
    ([], packU16 (UInt16.ofNat declared) ++ response.take (response.length / 2), some declared)
  | .duplicateResponse => ([response, response], [], none)
  | .trailingBytes => ([response], TRAILING_BYTES, some 17486)
  | .normal | .forceTcp | .splitPrefix | .splitBody | .bytewise | .delayed => ([response], [], none)

theorem parseFrames_sentParts {response : Octets} (h12 : 12 ≤ response.length)
    (hlen : response.length ≤ 65535) (s : Scenario) :
    parseFrames (sentParts response s).flatten = parsedParts response s := by
  have hne : response ≠ [] := List.length_pos_iff.mp (by omega)
  have hone : ∀ f ∈ [response], f ≠ [] ∧ f.length ≤ 65535 := by
    intro f hf
    rw [List.mem_singleton.mp hf]
    exact ⟨hne, hlen⟩
  have hempty : Stops [] none := .short (by decide)
  have hhalf : (response.take (response.length / 2)).length = response.length / 2 := by
    rw [List.length_take]
    omega
  -- one frame, in whatever parts
  have hframe : parseFrames (framed response) = ([response], [], none) := by
    have hparse := parseFrames_eq hone hempty
    rwa [List.flatMap_singleton, List.append_nil] at hparse
  -- a length and the front of a body
  have hstop : ∀ {n} {bs : Octets}, n ≤ 65535 → bs.length < n →
      parseFrames (packU16 (UInt16.ofNat n) ++ bs)
        = ([], packU16 (UInt16.ofNat n) ++ bs, some n) := fun hn hbs =>
    @parseFrames_eq [] _ _ (by simp) (stops_of_length hn hbs)
  cases s with
  | normal | forceTcp | splitPrefix | splitBody | bytewise | delayed =>
    rw [flatten_sentParts response (by decide), hframe]
    rfl
  | closeBeforeResponse | stall => rfl
  | closeAfterPrefix => exact hstop hlen (Nat.lt_of_lt_of_le (by decide : 0 < 12) h12)
  | closeMidBody =>
    rw [sentParts, List.flatten_cons, List.flatten_singleton]
    exact hstop hlen (by omega)
  | lengthMismatch =>
    rw [sentParts, List.flatten_cons, List.flatten_singleton]
    exact hstop (Nat.min_le_left _ _) (by omega)
  | duplicateResponse =>
    have hparse := @parseFrames_eq [response, response] _ _ (by simpa using hone) hempty
    rw [List.append_nil] at hparse
    exact hparse
  | trailingBytes =>
    have hread : readU16 TRAILING_BYTES 0 = some 17486 := by decide
    have htrailing : Stops TRAILING_BYTES (some 17486) :=
      Stops.incomplete hread (Or.inr (by decide))
    have hparse := parseFrames_eq hone htrailing
    rw [List.flatMap_singleton] at hparse
    rw [sentParts, List.flatten_cons, List.flatten_singleton]
    exact hparse

/-- Two writes at least, when octets follow the first. -/
theorem two_le_length_filter {part : Octets} {parts : List Octets} (hpart : part ≠ [])
    (hparts : parts.flatten ≠ []) :
    2 ≤ ((part :: parts).filter fun part => part ≠ []).length := by
  have hrest : (parts.filter fun part => part ≠ []) ≠ [] := by
    intro h
    rw [← flatten_filter_ne_nil, h] at hparts
    exact hparts rfl
  have hpos := List.length_pos_iff.mpr hrest
  rw [List.filter_cons_of_pos (by simpa using hpart), List.length_cons]
  omega

/-- The scenarios that split a response are seen to do so. -/
theorem minimumReads_le {response : Octets} (h12 : 12 ≤ response.length) {s : Scenario}
    (hs : s ∈ [Scenario.splitPrefix, .splitBody, .bytewise, .delayed]) :
    (if s = .bytewise then 3 else 2)
      ≤ (readChunks ((sentParts response s).filter fun part => part ≠ [])).length := by
  have hne : response ≠ [] := List.length_pos_iff.mp (by omega)
  have hreads : ∀ s, ((sentParts response s).filter fun part => part ≠ []).length
      ≤ (readChunks ((sentParts response s).filter fun part => part ≠ [])).length := fun s =>
    length_le_readChunks fun part hpart => by simpa using (List.mem_filter.mp hpart).2
  refine Nat.le_trans ?_ (hreads s)
  have hslices : ∀ {size}, 0 < size → (slices size response).flatten ≠ [] := fun hsize => by
    rwa [flatten_slices hsize]
  simp only [List.mem_cons, List.not_mem_nil, or_false] at hs
  rcases hs with rfl | rfl | rfl | rfl
  · exact two_le_length_filter (List.cons_ne_nil _ _) (List.cons_ne_nil _ _)
  · exact two_le_length_filter (List.cons_ne_nil _ _) (hslices (by decide))
  · have hkeep : ((sentParts response .bytewise).filter fun part => part ≠ [])
        = sentParts response .bytewise := by
      rw [List.filter_eq_self]
      intro part hpart
      obtain ⟨byte, -, rfl⟩ := List.mem_map.mp hpart
      rfl
    rw [hkeep, sentParts, List.length_map, length_framed, if_pos rfl]
    omega
  · exact two_le_length_filter (List.cons_ne_nil _ _) (hslices (by decide))

theorem observation_sentParts {response : Octets} (h12 : 12 ≤ response.length)
    (hlen : response.length ≤ 65535) (s : Scenario) (timedOut : Bool) (elapsedMs : Nat) :
    observation (readChunks ((sentParts response s).filter fun part => part ≠ [])) timedOut elapsedMs
      = ⟨(parsedParts response s).1,
          (readChunks ((sentParts response s).filter fun part => part ≠ [])).map List.length,
          !timedOut, timedOut, (parsedParts response s).2.1, (parsedParts response s).2.2,
          elapsedMs⟩ := by
  have hparse := parseFrames_sentParts h12 hlen s
  rw [← flatten_filter_ne_nil, ← flatten_readChunks] at hparse
  rw [observation, hparse]

/-! ### What is accepted -/

/-- What is expected of the octets, the reads and the time. -/
def Meets (o : Observation) (stallSeconds : Nat) : Expectation → Prop
  | .normal => o.frames.length = 1 ∧ o.trailing = []
  | .splitPrefix | .splitBody | .delayed =>
    (o.frames.length = 1 ∧ o.trailing = []) ∧ 2 ≤ o.readSizes.length
  | .bytewise => (o.frames.length = 1 ∧ o.trailing = []) ∧ 3 ≤ o.readSizes.length
  | .eofBeforeResponse => o.frames = [] ∧ o.trailing = []
  | .eofAfterPrefix => o.frames = [] ∧ o.trailing.length = 2
  | .eofMidBody | .lengthMismatch =>
    o.frames = [] ∧ 2 < o.trailing.length ∧ o.incompleteExpected.isSome
  | .stall =>
    (o.frames = [] ∧ o.trailing = []) ∧ stallSeconds * 900 ≤ o.elapsedMs ∧
      o.elapsedMs ≤ stallSeconds * 1500 + 500
  | .duplicateResponse => o.frames.length = 2 ∧ o.trailing = []
  | .trailingBytes => o.frames.length = 1 ∧ o.trailing ≠ []

@[simp] theorem refuse_eq_ok_iff {condition : Bool} {message : String} :
    refuse condition message = .ok () ↔ condition = false := by
  cases condition with
  | false => exact iff_of_true rfl rfl
  | true => exact iff_of_false (fun h => by cases h) (by decide)

@[simp] theorem refuse_bind_eq_ok_iff {condition : Bool} {message : String}
    {next : Unit → Except ProbeError Unit} :
    (refuse condition message >>= next) = .ok () ↔ condition = false ∧ next () = .ok () := by
  cases condition with
  | false => exact ⟨fun h => ⟨rfl, h⟩, fun h => h.2⟩
  | true => exact iff_of_false (fun h => by cases h) fun h => absurd h.1 (by decide)

theorem evaluate_eq_ok_iff {o : Observation} {expectation : Expectation} {stallSeconds : Nat} :
    evaluate o expectation stallSeconds = .ok () ↔
      (o.eof = true ∧ o.timedOut = false) ∧ Meets o stallSeconds expectation := by
  unfold evaluate
  rw [refuse_bind_eq_ok_iff]
  have hend : (!o.eof || o.timedOut) = false ↔ o.eof = true ∧ o.timedOut = false := by simp
  rw [hend]
  refine and_congr_right fun h => ?_
  cases expectation <;>
    simp only [Meets, h.1, refuse_bind_eq_ok_iff, refuse_eq_ok_iff, Bool.or_eq_false_iff,
      Bool.not_true, decide_eq_false_iff_not, not_not, Nat.not_lt, Nat.not_le, and_true, if_true,
      if_false, reduceCtorEq, Option.isNone_eq_false_iff, and_assoc, ne_eq]

/-! ### The handler -/

section

variable {d : Dnspython} (hd : d.Documented) {query response : Octets} {ls : List Label}
  {s : Scenario} (hasks : AsksScenario query ls s) (hquery : query.length ≤ 65535)
  (hans : Answers query response)
include hd hasks hquery hans

/-- The handler on the only query of a silent client: it sends what the scenario sends, and behind a
plain response it waits for another query. -/
theorem run_serveLoop_silent {c : Connection} (hc : c.client.peer.stream = framed query)
    (hsilent : c.client.peer.ending = .silent) {rests : List (Option Peer)}
    (hup : c.Upstream response rests) :
    ∃ c' result, (serveLoop d MAX_TCP_QUERIES).run c = (result, c') ∧
      waitedForInput result = decide (s = .normal ∨ s = .forceTcp) ∧
      c'.client.written
        = c.client.written ++ (sentParts response s).filter fun part => part ≠ [] := by
  have hfresh := hasks.isFresh_eq_false hd
  have hscenario := hasks.queryScenario
  have hne : query ≠ [] := by
    rintro rfl
    obtain ⟨_, hh, -⟩ := hasks.opcode
    cases hh
  have hc' : c.client.peer.stream = framed query ++ [] := by rw [hc, List.append_nil]
  by_cases hclose : s = .closeBeforeResponse ∨ s = .stall
  · obtain ⟨sock, hrecv, hafter⟩ := run_recvFrame hc' hne hquery
    have hrecv' : (onClient recvFrame).run c = (.ok query, { c with client := sock }) := by
      rw [run_onClient, hrecv]
    refine ⟨{ c with client := sock }, .ok (), ?_, ?_, ?_⟩
    · rw [MAX_TCP_QUERIES, serveLoop, Session.run_bind_ok hrecv', Session.run_ofExcept_bind hfresh,
        if_neg Bool.false_ne_true, Session.run_ofExcept_bind hscenario, if_pos hclose]
      rfl
    · rcases hclose with rfl | rfl <;> rfl
    · rcases hclose with rfl | rfl <;> exact hafter.written
  · obtain ⟨c', hafter, -, -, hrun⟩ :=
      run_serveLoop_sent hfresh hscenario hclose hc' hne hquery hup hans 63
    by_cases hkeep : s = .normal ∨ s = .forceTcp
    · rw [if_pos hkeep] at hrun
      have hrecv : (onClient recvFrame).run c' = (.error .timeout, c') := by
        rw [run_onClient, run_recvFrame_nil hafter.stream, hafter.ending, hsilent]
        rfl
      refine ⟨c', .error .timeout, ?_, (decide_eq_true hkeep).symm, hafter.written⟩
      rw [MAX_TCP_QUERIES, hrun, serveLoop, Session.run_bind_error hrecv]
    · rw [if_neg hkeep] at hrun
      exact ⟨c', .ok (), hrun, (decide_eq_false hkeep).symm, hafter.written⟩

/-- **What the probe observes** of the handler. -/
theorem observe_eq {peer : Peer} {behind : Octets} (hpeer : peer.stream = framed response ++ behind)
    (pattern : RequestPattern) (cuts : List Nat) (rests : List (Option Peer))
    (timeout ioTimeout elapsedMs : Nat) :
    observe d query pattern cuts (some peer :: rests) timeout ioTimeout elapsedMs
      = .ok (observation (readChunks ((sentParts response s).filter fun part => part ≠ []))
          (decide (s = .normal ∨ s = .forceTcp) && decide (timeout < ioTimeout)) elapsedMs) := by
  obtain ⟨_, hh, -⟩ := hasks.opcode
  have h12 := (readHeader_isSome_iff query).mp (by rw [hh]; rfl)
  obtain ⟨parts, hparts, hflat⟩ :=
    exists_requestParts (by rw [length_framed]; omega : 3 ≤ (framed query).length) pattern
  obtain ⟨c', result, hrun, hwaited, hwritten⟩ := run_serveLoop_silent hd hasks hquery hans
    (c := ⟨⟨⟨parts.flatten, cuts, .silent⟩, []⟩, some peer :: rests, []⟩) hflat rfl
    ⟨peer, behind, rfl, hpeer⟩
  unfold observe
  rw [frame_eq hquery]
  show (requestParts (framed query) pattern >>= _) = _
  rw [hparts]
  show Except.ok (observeHandler d timeout ioTimeout elapsedMs _) = _
  rw [observeHandler, hrun]
  dsimp only
  rw [hwaited, hwritten, List.nil_append]

end

/-! ### The rows of the table -/

/-- What a row of the table expects is what its scenario sends. -/
theorem meets_row {response : Octets} (h12 : 12 ≤ response.length)
    (hlen : response.length ≤ 65535) {stallSeconds elapsedMs : Nat} {row : Row}
    (hrow : row ∈ scenarioTable stallSeconds)
    (helapsed : row.label = .stall → elapsedMs = 1000 * stallSeconds) (timedOut : Bool) :
    Meets (observation (readChunks ((sentParts response row.label).filter fun part => part ≠ []))
      timedOut elapsedMs) stallSeconds row.expectation := by
  have hreads : ∀ s, s ∈ [Scenario.splitPrefix, .splitBody, .bytewise, .delayed] →
      (if s = .bytewise then 3 else 2) ≤ ((readChunks ((sentParts response s).filter
        fun part => part ≠ [])).map List.length).length := fun s hs => by
    rw [List.length_map]
    exact minimumReads_le h12 hs
  have hbody : 2 < (packU16 (UInt16.ofNat response.length) ++
      response.take (response.length / 2)).length := by
    rw [List.length_append, length_packU16, List.length_take]
    omega
  have hmismatch : 2 < (packU16 (UInt16.ofNat (min 65535 (response.length + 16))) ++
      response.take (response.length / 2)).length := by
    rw [List.length_append, length_packU16, List.length_take]
    omega
  rw [observation_sentParts h12 hlen]
  simp only [scenarioTable, List.mem_cons, List.not_mem_nil, or_false] at hrow
  rcases hrow with rfl | rfl | rfl | rfl | rfl | rfl | rfl | rfl | rfl | rfl | rfl | rfl
  · exact ⟨rfl, rfl⟩
  · exact ⟨⟨rfl, rfl⟩, hreads .splitPrefix (by decide)⟩
  · exact ⟨⟨rfl, rfl⟩, hreads .splitBody (by decide)⟩
  · exact ⟨⟨rfl, rfl⟩, hreads .bytewise (by decide)⟩
  · exact ⟨⟨rfl, rfl⟩, hreads .delayed (by decide)⟩
  · exact ⟨rfl, rfl⟩
  · exact ⟨rfl, rfl⟩
  · exact ⟨rfl, hbody, rfl⟩
  · exact ⟨rfl, hmismatch, rfl⟩
  · refine ⟨⟨rfl, rfl⟩, ?_⟩
    dsimp only
    rw [helapsed rfl]
    omega
  · exact ⟨rfl, rfl⟩
  · exact ⟨rfl, List.cons_ne_nil _ _⟩

/-- **The probe accepts** what the handler does in every row but `normal`, where the handler waits for
another query for longer than the client for the end of the stream. -/
theorem accepts_iff {d : Dnspython} (hd : d.Documented) {stallSeconds : Nat} {row : Row}
    (hrow : row ∈ scenarioTable stallSeconds) {query response behind : Octets} {ls : List Label}
    (hasks : AsksScenario query ls row.label) (hquery : query.length ≤ 65535)
    (hans : Answers query response) {peer : Peer} (hpeer : peer.stream = framed response ++ behind)
    (pattern : RequestPattern) (cuts : List Nat) (rests : List (Option Peer)) {elapsedMs : Nat}
    (helapsed : row.label = .stall → elapsedMs = 1000 * stallSeconds) :
    ∃ o, observe d query pattern cuts (some peer :: rests) row.timeout IO_TIMEOUT_SECONDS elapsedMs
        = .ok o ∧
      (evaluate o row.expectation stallSeconds = .ok () ↔ row.label ≠ .normal) := by
  refine ⟨_, observe_eq hd hasks hquery hans hpeer pattern cuts rests _ _ _, ?_⟩
  have hmeets := meets_row hans.header hans.size hrow helapsed
  rw [evaluate_eq_ok_iff, and_iff_left (hmeets _)]
  -- only the first row waits, and for less time than the handler
  have hwaits : (decide (row.label = .normal ∨ row.label = .forceTcp) &&
      decide (row.timeout < IO_TIMEOUT_SECONDS)) = decide (row.label = .normal) := by
    simp only [scenarioTable, List.mem_cons, List.not_mem_nil, or_false] at hrow
    rcases hrow with rfl | rfl | rfl | rfl | rfl | rfl | rfl | rfl | rfl | rfl | rfl | rfl <;> rfl
  rw [hwaits]
  show (!decide (row.label = .normal)) = true ∧ decide (row.label = .normal) = false ↔ _
  simp

/-- The probe's query for a scenario. -/
def Reference.scenarioQuery (s : Scenario) : Octets :=
  writeHeader ⟨0x6313, 0x0100, 1, 0, 0, 0⟩ ++ wireLabels (transportOwner s) ++ [0, 1, 0, 1]

/-- An authoritative response to it, without records. -/
def Reference.scenarioResponse (s : Scenario) : Octets :=
  writeHeader ⟨0x6313, 0x8500, 1, 0, 0, 0⟩ ++ wireLabels (transportOwner s) ++ [0, 1, 0, 1]

/-- Octets behind a frame, which are read as a length. -/
theorem accepts_iff_trailing : ∃ o,
    observe Reference.dnspython (Reference.scenarioQuery .trailingBytes) .splitBody [0, 3, 1]
      [some ⟨framed (Reference.scenarioResponse .trailingBytes), [1], .closed⟩] 4
      IO_TIMEOUT_SECONDS 50 = .ok o ∧
    (evaluate o .trailingBytes 2 = .ok () ↔ Scenario.trailingBytes ≠ .normal) := by
  have hquery : buildQuery ("trailing-bytes" ++ TRANSPORT_SUFFIX) "A" 0x6313
      = .ok (Reference.scenarioQuery .trailingBytes) := by decide
  have hasks := @asksScenario_buildQuery .trailingBytes _ _ _ hquery
  have hrow : (⟨.trailingBytes, .trailingBytes, 4⟩ : Row) ∈ scenarioTable 2 := by decide
  have hans : Answers (Reference.scenarioQuery .trailingBytes)
      (Reference.scenarioResponse .trailingBytes) := ⟨by decide, by decide, by decide⟩
  exact accepts_iff Reference.documented hrow hasks (by decide) hans (List.append_nil _).symm
    .splitBody [0, 3, 1] [] (by decide)

/-- The first row: the client gives up after four seconds, the handler would close after five. -/
theorem not_accepts_normal :
    buildQuery "normal.transport.example.test" "A" 0x6313
      = .ok (Reference.scenarioQuery .normal) ∧
    (⟨.normal, .normal, 4⟩ : Row) ∈ scenarioTable 2 ∧
    Answers (Reference.scenarioQuery .normal) (Reference.scenarioResponse .normal) ∧
    ∃ o, observe Reference.dnspython (Reference.scenarioQuery .normal) .whole []
        [some ⟨framed (Reference.scenarioResponse .normal), [], .closed⟩] 4 IO_TIMEOUT_SECONDS 4000
        = .ok o ∧
      evaluate o .normal 2 = .error (.assertionError "expected EOF before the client timeout") := by
  have hquery : buildQuery ("normal" ++ TRANSPORT_SUFFIX) "A" 0x6313
      = .ok (Reference.scenarioQuery .normal) := by decide
  have hasks := @asksScenario_buildQuery .normal _ _ _ hquery
  have hans : Answers (Reference.scenarioQuery .normal) (Reference.scenarioResponse .normal) :=
    ⟨by decide, by decide, by decide⟩
  have hpeer : (⟨framed (Reference.scenarioResponse .normal), [], .closed⟩ : Peer).stream
      = framed (Reference.scenarioResponse .normal) ++ [] := (List.append_nil _).symm
  have hobserve := observe_eq Reference.documented hasks (by decide) hans hpeer .whole [] [] 4
    IO_TIMEOUT_SECONDS 4000
  exact ⟨hquery, by decide, hans, _, hobserve, rfl⟩

end DnsFixtures
