import LightClient.Proofs.Exchange.Unbroken
import LightClient.Proofs.Exchange.Watched
import LightClient.Proofs.Locate.Node
import LightClient.Proofs.Locate.ReceiptTick
import LightClient.Proofs.Transaction.Taken
/-!
# Which requests are sent

Looking for a transaction sends at most four requests, in one order, and each of them only after what was received
calls for it: a later current tick, a published header that lists a digest, a transaction with the wanted identity
that is listed. `Disciplined` says this of the rounds of a record. It is kept by every exchange whose request is due
(`Kept.run`) and so by the whole run (`exists_kept_locate`).

The first round decides whether there are others. It may not give a current tick, and then the run fails: with the
error of the link, with that of a malformed account, or because the node was silent (`Opened`). `requests_due` says so of
every link by its record, and of a node by its script.
-/
namespace LightClient

/-- In some round a request of one type was answered with a record, the first of its kind. -/
def Round.Given {α : Type} (rounds : List Round) (request kind : MessageType) (parse : Bytes → Except Malformed α)
    (a : α) : Prop :=
  ∃ r ∈ rounds, r.request.is request = true ∧ Packet.first kind parse r.answer = .ok (some a)

theorem Round.Given.append {α : Type} {rounds : List Round} {request kind : MessageType}
    {parse : Bytes → Except Malformed α} {a : α} (h : Given rounds request kind parse a) (more : List Round) :
    Given (rounds ++ more) request kind parse a := by
  obtain ⟨r, hr, hgiven⟩ := h
  exact ⟨r, List.mem_append_left _ hr, hgiven⟩

theorem MessageType.eq_of_code {a b : MessageType} (h : a.code = b.code) : a = b := by
  revert h
  cases a <;> cases b <;> decide

namespace Location

variable {σ : Type} [Transport σ] {computors : Option ComputorSet} {wanted : String} {tick : UInt32}

/-- The requests for the current tick, for a tick's header, for all of its transactions and for their status, as types
and payloads. -/
def requests (tick : UInt32) : List (UInt8 × Bytes) :=
  [(27, []), (16, leBytes 4 tick.toNat), (29, leBytes 4 tick.toNat ++ List.replicate 128 0),
    (201, leBytes 4 tick.toNat)]

/-- A current tick after the wanted one was received. -/
def Passed (tick : UInt32) (rounds : List Round) : Prop :=
  ∃ info, Round.Given rounds .requestTickInfo .tickInfo TickInfo.ofBytes info ∧ tick < info.tick

/-- A header was received, of a tick that was produced and with a digest that is not zero. -/
def Published (rounds : List Round) : Prop :=
  ∃ header, Round.Given rounds .requestTickHeader .broadcastTickHeader TickHeader.ofBytes header ∧
    header.body.epoch ≠ 0 ∧ header.body.listed ≠ []

/-- Transactions were received, and one of them has the wanted identity and is listed by the header. They are the
messages with which the answer begins, as many as the header lists digests. -/
def Fetched (wanted : String) (rounds : List Round) : Prop :=
  ∃ header, Round.Given rounds .requestTickHeader .broadcastTickHeader TickHeader.ofBytes header ∧
    ∃ r ∈ rounds, r.request.is .requestTransactions = true ∧ ∃ transactions,
      Transaction.Decoded (Packet.leading .broadcastTransaction header.body.transactionCount r.answer) transactions ∧
        ∃ t ∈ transactions, Identity.same t.id wanted = true ∧ t.hash ∈ header.body.listed

/-- What must have been received before a request is sent. -/
structure Due (wanted : String) (tick : UInt32) (before : List Round) (request : Packet) : Prop where
  header : request.is .requestTickHeader = true → Passed tick before
  transactions : request.is .requestTransactions = true → Published before
  status : request.is .requestTxStatus = true → Fetched wanted before

/-- A request is due if what its type calls for was received. -/
theorem due_of_kind {before : List Round} {q : Packet} {kind : MessageType} (hq : q.kind = kind.code)
    (hheader : kind = .requestTickHeader → Passed tick before)
    (htransactions : kind = .requestTransactions → Published before)
    (hstatus : kind = .requestTxStatus → Fetched wanted before) : Due wanted tick before q := by
  have hkind {other : MessageType} (h : q.is other = true) : kind = other :=
    MessageType.eq_of_code (hq.symm.trans (eq_of_beq h))
  exact ⟨fun h => hheader (hkind h), fun h => htransactions (hkind h), fun h => hstatus (hkind h)⟩

/-- Rounds in which the requests are sent in their order, and each only when it is due. -/
structure Disciplined (wanted : String) (tick : UInt32) (rounds : List Round) : Prop where
  asked : rounds.map Round.asked = (requests tick).take rounds.length
  due : ∀ before r after, rounds = before ++ r :: after → Due wanted tick before r.request

theorem disciplined_nil : Disciplined wanted tick [] where
  asked := rfl
  due before r after h := by simp at h

theorem Disciplined.concat {rounds : List Round} (h : Disciplined wanted tick rounds) {r : Round}
    (hasked : (requests tick)[rounds.length]? = some r.asked) (hdue : Due wanted tick rounds r.request) :
    Disciplined wanted tick (rounds ++ [r]) where
  asked := by
    rw [List.map_append, h.asked, List.length_append, List.length_singleton, List.take_add_one, hasked]
    rfl
  due before r' after heq := by
    rcases List.eq_nil_or_concat after with rfl | ⟨earlier, last, rfl⟩
    · obtain ⟨rfl, hlast⟩ := List.append_inj' heq rfl
      cases hlast
      exact hdue
    · rw [List.concat_eq_append, ← List.cons_append, ← List.append_assoc] at heq
      exact h.due before r' earlier (List.append_inj' heq rfl).1

/-- A session whose record is that of some disciplined rounds. -/
structure Kept (wanted : String) (tick : UInt32) (rounds : List Round) (s : Session (Watched σ)) : Prop where
  acts : s.link.acts = rounds.flatMap Round.acts
  disciplined : Disciplined wanted tick rounds

variable {rounds : List Round} {s : Session (Watched σ)}

/-- An exchange whose request is due adds one round. Its result is what it comes to in this round. -/
theorem Kept.run {β : Type} {e : Exchange β} (h : Kept wanted tick rounds s)
    (hfits : e.payload.length + Header.size < Header.maxTotal)
    (hasked : (requests tick)[rounds.length]? = some (e.request.code, e.payload))
    (hdue : ∀ q : Packet, q.kind = e.request.code → Due wanted tick rounds q) :
    ∃ r, Kept wanted tick (rounds ++ [r]) (s.run e).2 ∧ r.request.kind = e.request.code ∧
      (s.run e).1 = r.result e := by
  obtain ⟨r, hr, hacts, hresult⟩ := Session.exists_round hfits s
  have hkind : r.request.kind = e.request.code := congrArg Prod.fst hr
  refine ⟨r, ⟨?_, h.disciplined.concat (hr ▸ hasked) (hdue _ hkind)⟩, hkind, hresult⟩
  rw [hacts, h.acts, List.flatMap_append, List.flatMap_singleton]

/-! ## The run -/

theorem round_is {r : Round} {kind : MessageType} (h : r.request.kind = kind.code) : r.request.is kind = true :=
  beq_iff_eq.mpr h

/-- The transactions under a header of which the record knows, and the report on them. What is found took both. -/
theorem Kept.locateUnder {header : TickHeader} {r₁ r₂ : Round} (h : Kept wanted tick [r₁, r₂] s)
    (hheader : Round.Given [r₁, r₂] .requestTickHeader .broadcastTickHeader TickHeader.ofBytes header)
    (hepoch : header.body.epoch ≠ 0) (computors : Option ComputorSet) :
    ∃ later, Kept wanted tick (r₁ :: r₂ :: later) ((locateUnder computors wanted tick header).run s).2 ∧
      ∀ receipt, ((locateUnder computors wanted tick header).run s).1 = .ok (.found receipt) → later.length = 2 := by
  rw [run_locateUnder]
  by_cases hcount : header.body.transactionCount = 0
  · rw [hcount]
    exact ⟨[], h, fun receipt hfound => nomatch hfound⟩
  rw [Transaction.run_fetch hcount]
  have hlisted : header.body.listed ≠ [] := by
    intro hnil
    rw [← TickData.length_listed, hnil] at hcount
    exact hcount rfl
  have hpublished : Published [r₁, r₂] := ⟨header, hheader, hepoch, hlisted⟩
  obtain ⟨r₃, hkept₃, hkind₃, hresult₃⟩ := h.run (e := Transaction.exchange tick header.body.transactionCount)
    (fits_request_transactions tick _) rfl fun _ hq => due_of_kind hq nofun (fun _ => hpublished) nofun
  rcases hfetch : s.run (Transaction.exchange tick header.body.transactionCount) with ⟨e | gathered, t⟩ <;>
    rw [hfetch] at hkept₃ hresult₃
  · exact ⟨[r₃], hkept₃, fun receipt hfound => nomatch hfound⟩
  simp only
  cases hfind : findIn header gathered.transactions wanted with
  | none => exact ⟨[r₃], hkept₃, fun receipt hfound => nomatch hfound⟩
  | some place =>
    obtain ⟨slot, transaction⟩ := place
    obtain ⟨hmem, hsame⟩ := mem_of_findIn hfind
    obtain ⟨new, hnew, hdecoded⟩ := Transaction.decoded_of_hearAll (Round.hearAll_of_result hresult₃.symm)
    have hfetched : Fetched wanted ([r₁, r₂] ++ [r₃]) :=
      ⟨header, hheader.append _, r₃, List.mem_append_right _ List.mem_cons_self, round_is hkind₃, new, hdecoded,
        transaction, by rwa [hnew] at hmem, hsame, TickData.exists_slotOf?_iff.mp ⟨slot, slotOf?_of_findIn hfind⟩⟩
    obtain ⟨r₄, hkept₄, -, -⟩ := hkept₃.run (e := TxStatus.exchange tick) (fits_request_status tick) rfl
      fun _ hq => due_of_kind hq nofun nofun fun _ => hfetched
    rcases hreport : t.run (TxStatus.exchange tick) with ⟨e | report, u⟩ <;> rw [hreport] at hkept₄
    · exact ⟨[r₃, r₄], hkept₄, fun receipt hfound => nomatch hfound⟩
    · exact ⟨[r₃, r₄], hkept₄, fun receipt _ => rfl⟩

/-- Looking for a transaction keeps the discipline. The first round is that for the current tick, and the only one
unless it gives one past the wanted tick; what is found took four. -/
theorem exists_kept_locate (computors : Option ComputorSet) (wanted : String) (tick : UInt32)
    {s : Session (Watched σ)} (hs : s.link.acts = []) :
    ∃ first later, Kept wanted tick (first :: later) ((locate computors wanted tick).run s).2 ∧
      (s.run TickInfo.exchange).1 = first.result TickInfo.exchange ∧
      ((∀ info, first.result TickInfo.exchange = .ok (some info) → info.tick ≤ tick) → later = []) ∧
      ∀ receipt, ((locate computors wanted tick).run s).1 = .ok (.found receipt) → later.length = 3 := by
  -- Each exchange adds its round, and what the round's answer holds makes the next request due.
  have hstart : Kept wanted tick [] s := ⟨hs, disciplined_nil⟩
  obtain ⟨r₁, hkept₁, hkind₁, hresult₁⟩ := hstart.run (e := TickInfo.exchange) (by decide) rfl
    fun _ hq => due_of_kind hq nofun nofun nofun
  rw [run_locate]
  rcases hinfo : s.run TickInfo.exchange with ⟨e | _ | info, t⟩ <;> rw [hinfo] at hkept₁ hresult₁
  · exact ⟨r₁, [], hkept₁, hresult₁, fun _ => rfl, fun receipt hfound => nomatch hfound⟩
  · exact ⟨r₁, [], hkept₁, hresult₁, fun _ => rfl, fun receipt hfound => nomatch hfound⟩
  by_cases hpast : info.tick ≤ tick
  · simp only [if_pos hpast]
    exact ⟨r₁, [], hkept₁, hresult₁, fun _ => rfl, fun receipt hfound => nomatch hfound⟩
  have hlate {P : Prop} (hearly : ∀ i, r₁.result TickInfo.exchange = .ok (some i) → i.tick ≤ tick) : P :=
    absurd (hearly info hresult₁.symm) hpast
  have hgiven : Round.Given [r₁] .requestTickInfo .tickInfo TickInfo.ofBytes info :=
    ⟨r₁, List.mem_cons_self, round_is hkind₁,
      (TickInfo.hearAll_exchange _).symm.trans (Round.hearAll_of_result hresult₁.symm)⟩
  have hpassed : Passed tick [r₁] := ⟨info, hgiven, UInt32.not_le.mp hpast⟩
  obtain ⟨r₂, hkept₂, hkind₂, hresult₂⟩ := hkept₁.run (e := TickHeader.exchange tick) (fits_request_header tick) rfl
    fun _ hq => due_of_kind hq (fun _ => hpassed) nofun nofun
  simp only [if_neg hpast]
  rcases hheader : t.run (TickHeader.exchange tick) with ⟨e | heard, u⟩ <;> rw [hheader] at hkept₂ hresult₂
  · exact ⟨r₁, [r₂], hkept₂, hresult₁, hlate, fun receipt hfound => nomatch hfound⟩
  simp only
  split
  · exact ⟨r₁, [r₂], hkept₂, hresult₁, hlate, fun receipt hfound => nomatch hfound⟩
  rename_i header hfilter
  obtain ⟨rfl, hpublished⟩ := Option.filter_eq_some_iff.mp hfilter
  have hgiven : Round.Given [r₁, r₂] .requestTickHeader .broadcastTickHeader TickHeader.ofBytes header :=
    ⟨r₂, List.mem_cons_of_mem _ List.mem_cons_self, round_is hkind₂,
      ((TickHeader.takesFirst_exchange tick).hearAll_none _).symm.trans (Round.hearAll_of_result hresult₂.symm)⟩
  obtain ⟨later, hkept, hfound⟩ :=
    hkept₂.locateUnder hgiven (by simpa [TickData.isEmpty] using hpublished) computors
  exact ⟨r₁, r₂ :: later, hkept, hresult₁, hlate, fun receipt h => congrArg (· + 1) (hfound receipt h)⟩

/-! ## The first round -/

theorem run_of_info_error {s : Session σ} {err : Error} (h : (s.run TickInfo.exchange).1 = .error err) :
    ((locate computors wanted tick).run s).1 = .error err := by
  rw [run_locate]
  rcases hrun : s.run TickInfo.exchange with ⟨outcome, t⟩
  rw [hrun] at h
  cases h
  rfl

theorem run_of_info_none {s : Session σ} (h : (s.run TickInfo.exchange).1 = .ok none) :
    ((locate computors wanted tick).run s).1 = .error (.connectivity .silentNode) := by
  rw [run_locate]
  rcases hrun : s.run TickInfo.exchange with ⟨outcome, t⟩
  rw [hrun] at h
  cases h
  rfl

/-- How a run begins, over any link: with the round in which the current tick is asked for. -/
structure Opened (tick : UInt32) (outcome : Outcome Location) (first : Round) (later : List Round) : Prop where
  /-- The link fails. -/
  failed (err : Error) : first.failure = some err → outcome = .error err ∧ later = []
  /-- The first account of the current tick has the wrong length. -/
  malformed (p : Packet) : first.failure = none → first.answer.find? (·.is .tickInfo) = some p →
    p.payload.length ≠ 16 →
      outcome = .error (.malformed ⟨"current tick info", 16, p.payload.length⟩) ∧ later = []
  /-- The answer ends or falls silent without an account of the current tick. -/
  silent : first.failure = none → first.answer.find? (·.is .tickInfo) = none →
    outcome = .error (.connectivity .silentNode) ∧ later = []
  /-- The current tick is not past the wanted one. -/
  notYet (t c : UInt32) : outcome = .ok (notYetFinalized t c) ↔ t = tick ∧ c ≤ tick ∧ first.failure = none ∧
    ∃ info, Packet.first .tickInfo TickInfo.ofBytes first.answer = .ok (some info) ∧ info.tick = c
  /-- Then the first request is the only one. -/
  alone (t c : UInt32) : outcome = .ok (notYetFinalized t c) → later = []

theorem result_info {r : Round} (h : r.failure = none) :
    r.result TickInfo.exchange = Packet.first .tickInfo TickInfo.ofBytes r.answer := by
  rw [Round.result, h]
  exact TickInfo.hearAll_exchange r.answer

/-- A run begins with what the first round comes to. -/
theorem opened_of_result {s : Session σ} {first : Round} {later : List Round}
    (hresult : (s.run TickInfo.exchange).1 = first.result TickInfo.exchange)
    (hone : (∀ info, first.result TickInfo.exchange = .ok (some info) → info.tick ≤ tick) → later = []) :
    Opened tick ((locate computors wanted tick).run s).1 first later := by
  have hstops {err : Error} (herr : first.result TickInfo.exchange = .error err) :
      ((locate computors wanted tick).run s).1 = .error err ∧ later = [] := by
    refine ⟨run_of_info_error (hresult.trans herr), hone fun info hinfo => ?_⟩
    cases herr.symm.trans hinfo
  have hnotYet (t c : UInt32) : ((locate computors wanted tick).run s).1 = .ok (notYetFinalized t c) ↔
      t = tick ∧ c ≤ tick ∧ first.failure = none ∧
        ∃ info, Packet.first .tickInfo TickInfo.ofBytes first.answer = .ok (some info) ∧ info.tick = c := by
    rw [run_eq_notYetFinalized_iff, hresult]
    cases hfailure : first.failure with
    | some err => simp [Round.result, hfailure]
    | none => simp [result_info hfailure]
  refine ⟨fun err hfailure => hstops (by rw [Round.result, hfailure]), fun p hfailure hfind hlength => ?_,
    fun hfailure hfind => ?_, hnotYet, fun t c h => ?_⟩
  · have hmalformed := TickInfo.ofBytes_of_length_ne hlength
    refine hstops ?_
    rw [result_info hfailure, Packet.first, hfind]
    simp only [hmalformed, Outcome.ofRecord_error, Except.map]
  · have hnone : first.result TickInfo.exchange = .ok none := by rw [result_info hfailure, Packet.first, hfind]
    refine ⟨run_of_info_none (hresult.trans hnone), hone fun info hinfo => ?_⟩
    cases hnone.symm.trans hinfo
  · obtain ⟨-, hle, hfailure, info, hinfo, rfl⟩ := (hnotYet t c).mp h
    refine hone fun i hi => ?_
    rw [result_info hfailure, hinfo] at hi
    cases hi
    exact hle

/-- How a run begins at a node, by what its script says. -/
structure OpenedAt (s : Session Peer) (tick : UInt32) (outcome : Outcome Location) : Prop where
  /-- The node refuses the request. -/
  refused (err : Error) : s.link.refusal? = some err → outcome = .error err
  /-- The first account of the current tick in its answer has the wrong length. -/
  malformed (p : Packet) : s.link.refusal? = none → s.answer.find? (·.is .tickInfo) = some p →
    p.payload.length ≠ 16 → outcome = .error (.malformed ⟨"current tick info", 16, p.payload.length⟩)
  /-- There is no account of it, and the answer ends, or breaks off. -/
  silent : s.link.refusal? = none → s.answer.find? (·.is .tickInfo) = none →
    outcome = .error ((Event.brokenBy? s.nextNonce s.link.heard).getD (.connectivity .silentNode))
  /-- The current tick is not past the wanted one. -/
  notYet (t c : UInt32) : outcome = .ok (notYetFinalized t c) ↔ t = tick ∧ c ≤ tick ∧ s.link.refusal? = none ∧
    ∃ info, Packet.first .tickInfo TickInfo.ofBytes s.answer = .ok (some info) ∧ info.tick = c

theorem openedAt (computors : Option ComputorSet) (wanted : String) (tick : UInt32) (s : Session Peer) :
    OpenedAt s tick ((locate computors wanted tick).run s).1 := by
  have hinfo := TickInfo.run_exchange s
  refine ⟨fun err hrefusal => ?_, fun p hrefusal hfind hlength => ?_, fun hrefusal hfind => ?_, fun t c => ?_⟩
  · rw [hrefusal] at hinfo
    exact run_of_info_error hinfo
  · simp only [hrefusal, hfind, TickInfo.ofBytes_of_length_ne hlength] at hinfo
    exact run_of_info_error hinfo
  · simp only [hrefusal, hfind] at hinfo
    cases hbroken : Event.brokenBy? s.nextNonce s.link.heard with
    | some err => rw [hbroken] at hinfo; exact run_of_info_error hinfo
    | none => rw [hbroken] at hinfo; exact run_of_info_none hinfo
  · rw [run_eq_notYetFinalized_iff, hinfo]
    cases hrefusal : s.link.refusal? with
    | some err => simp
    | none =>
      cases hfind : s.answer.find? (·.is .tickInfo) with
      | some p => simp [Packet.first, hfind]
      | none => cases Event.brokenBy? s.nextNonce s.link.heard <;> simp [Packet.first, hfind]

/-! ## The whole run -/

/-- **Requests are sent in order, and when they are due.** Over any link, the record of a run consists of rounds whose
requests are the first ones of `requests tick`, no two of one type, and each was due when it was sent; they are all
four if the transaction is found. The first round settles the run unless it gives a current tick past the wanted one:
the run finds that the tick has not passed exactly if the current tick given is not later, and fails with the error of
the link, with that of a malformed account, or because the answer ends without one. The last part says the same of a
node by its script. -/
theorem requests_due (computors : Option ComputorSet) (wanted : String) (tick : UInt32) :
    (∀ {σ : Type} [Transport σ] (s : Session σ),
      (locate computors wanted tick).run s = (((locate computors wanted tick).run s.watched).1,
        ((locate computors wanted tick).run s.watched).2.unwatched) ∧
      ∃ (first : Round) (later : List Round),
        (locate computors wanted tick).acts s = (first :: later).flatMap Round.acts ∧
        (first :: later).map Round.asked <+: requests tick ∧
        ((first :: later).map fun r => r.request.kind).Nodup ∧
        (∀ before r after, first :: later = before ++ r :: after → Due wanted tick before r.request) ∧
        Opened tick ((locate computors wanted tick).run s).1 first later ∧
        ∀ receipt, ((locate computors wanted tick).run s).1 = .ok (.found receipt) →
          (first :: later).map Round.asked = requests tick) ∧
    ∀ s : Session Peer, OpenedAt s tick ((locate computors wanted tick).run s).1 := by
  refine ⟨fun s => ?_, openedAt computors wanted tick⟩
  have hrun := (locate computors wanted tick).run_unwatched s.watched
  have houtcome : ((locate computors wanted tick).run s).1 = ((locate computors wanted tick).run s.watched).1 :=
    congrArg Prod.fst hrun
  obtain ⟨first, later, hkept, hresult, hone, hfound⟩ :=
    exists_kept_locate computors wanted tick (s := s.watched) rfl
  refine ⟨hrun, first, later, hkept.acts, ?_, ?_, hkept.disciplined.due, ?_, fun receipt h => ?_⟩
  · rw [hkept.disciplined.asked]
    exact List.take_prefix ..
  · have hkinds : ((first :: later).map fun r => r.request.kind) <+: [27, 16, 29, 201] := by
      have hmap := hkept.disciplined.asked ▸ (List.take_prefix (first :: later).length (requests tick)).map Prod.fst
      rwa [List.map_map] at hmap
    exact hkinds.sublist.nodup (by decide)
  · rw [houtcome]
    exact opened_of_result hresult hone
  · rw [hkept.disciplined.asked, List.length_cons, hfound receipt (houtcome.symm.trans h)]
    rfl

/-- A node that gives every record is asked for all four, and each request is due when it is sent. One whose current
tick is the wanted one is asked once, and one that says nothing is reported as silent. -/
theorem requests_due_honest :
    (∃ r₁ r₂ r₃ r₄ : Round,
      (locate none (Transaction.blank 1 []).id 5).acts (Session.start (nodeWith 5) Nonce.ofNat) =
        [r₁, r₂, r₃, r₄].flatMap Round.acts ∧ [r₁, r₂, r₃, r₄].map Round.asked = requests 5 ∧
      Passed 5 [r₁] ∧ Published [r₁, r₂] ∧ Fetched (Transaction.blank 1 []).id [r₁, r₂, r₃]) ∧
    (((locate none "" 9).run (Session.start emptyNode Nonce.ofNat)).1 = .ok (notYetFinalized 9 9) ∧
      ∃ r : Round, (locate none "" 9).acts (Session.start emptyNode Nonce.ofNat) = r.acts ∧ r.asked = (27, [])) ∧
    ((locate none "" 9).run (Session.start (Peer.ofScript [] []) Nonce.ofNat)).1 =
      .error (.connectivity .silentNode) := by
  refine ⟨?_, ?_, (requests_due none "" 9).2 _ |>.silent rfl rfl⟩
  · obtain ⟨trail, -⟩ := exists_trail_nodeWith 5
    obtain ⟨-, first, later, hacts, -, -, hdue, -, hall⟩ :=
      (requests_due none (Transaction.blank 1 []).id 5).1 (Session.start (nodeWith 5) Nonce.ofNat)
    have hasked := hall (receiptOf 5) (by rw [trail.run])
    obtain ⟨r₂, r₃, r₄, rfl⟩ := List.length_eq_three.mp (Nat.succ.inj
      ((List.length_map _).symm.trans (congrArg List.length hasked)))
    have hkinds := congrArg (List.map Prod.fst) hasked
    simp only [List.map_cons, List.map_nil, requests, List.cons.injEq, and_true] at hkinds
    obtain ⟨-, h₂, h₃, h₄⟩ := hkinds
    refine ⟨first, r₂, r₃, r₄, hacts, hasked, (hdue [first] r₂ [r₃, r₄] rfl).header (round_is h₂),
      (hdue [first, r₂] r₃ [r₄] rfl).transactions (round_is h₃), (hdue [first, r₂, r₃] r₄ [] rfl).status (round_is h₄)⟩
  · obtain ⟨arrived, hinfo⟩ := run_info_emptyNode
    have hfinal : ((locate none "" 9).run (Session.start emptyNode Nonce.ofNat)).1 = .ok (notYetFinalized 9 9) :=
      run_eq_notYetFinalized_iff.mpr ⟨rfl, by decide, someInfo, congrArg Prod.fst hinfo, rfl⟩
    obtain ⟨-, first, later, hacts, hprefix, -, -, hopened, -⟩ :=
      (requests_due none "" 9).1 (Session.start emptyNode Nonce.ofNat)
    obtain rfl := hopened.alone 9 9 hfinal
    exact ⟨hfinal, first, by rw [hacts, List.flatMap_singleton], (List.cons_prefix_cons.mp hprefix).1⟩

/-- A node whose account of the current tick has three bytes. -/
def curtNode : Peer := .ofScript [] [.answer [.packet (.holding .tickInfo 1 [1, 2, 3])]]

/-- A node with a header on its link that no message can have. -/
def garblingNode : Peer := .ofScript [] [.answer [.failure (.protocolViolation (.corrupted [0, 0, 0, 28, 1, 0, 0, 0]))]]

/-- A node may never report its current tick, and yet the connection is not what fails: the run stops at the malformed
account, or at the impossible header. -/
theorem unreported_malformed :
    ((locate none "abc" 5).run (Session.start curtNode Nonce.ofNat)).1 =
      .error (.malformed ⟨"current tick info", 16, 3⟩) ∧
    ((locate none "abc" 5).run (Session.start garblingNode Nonce.ofNat)).1 =
      .error (.protocolViolation (.corrupted [0, 0, 0, 28, 1, 0, 0, 0])) ∧
    ¬ ∀ s : Session Peer, (∀ p ∈ s.answer, ∀ info, TickInfo.ofBytes p.payload ≠ .ok info) →
      ∃ fault, ((locate none "abc" 5).run s).1 = .error (.connectivity fault) := by
  have hmalformed := (openedAt none "abc" 5 (Session.start curtNode Nonce.ofNat)).malformed
    (.holding .tickInfo 1 [1, 2, 3]) rfl rfl (by decide)
  refine ⟨hmalformed, (openedAt ..).silent rfl rfl, fun hclaim => ?_⟩
  have hunreported : ∀ p ∈ (Session.start curtNode Nonce.ofNat).answer, ∀ info,
      TickInfo.ofBytes p.payload ≠ .ok info := by
    intro p hp info hinfo
    obtain rfl : p = .holding .tickInfo 1 [1, 2, 3] := List.mem_singleton.mp hp
    rw [TickInfo.ofBytes_of_length_ne (by decide)] at hinfo
    cases hinfo
  obtain ⟨fault, hfault⟩ := hclaim (Session.start curtNode Nonce.ofNat) hunreported
  cases hmalformed.symm.trans hfault

end Location

end LightClient
