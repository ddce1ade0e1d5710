import LightClient.Proofs.Bytes.Reading
import LightClient.Proofs.Locate.Node
import LightClient.Proofs.Vote.Answer
/-!
# What is fetched, as a function of the answer

Asking for votes, for a header and for transactions are loops over what the link gives. Where the answer does not
break off, each of them computes a function of the messages of the answer (`Vote.ofAnswer`, `TickHeader.ofAnswer`,
`Transaction.ofAnswer`). They differ in which messages they decode, and so in which malformed messages make them fail:
all votes, whatever their tick; the first header; the leading transactions, as many as are expected
(`Session.Unbroken.fetched`).
-/
namespace LightClient

theorem Outcome.ofRecord_parse_eq_error_iff {α : Type} (L : Layout α) (record : String) (bs : Bytes) (e : Error) :
    ofRecord (L.parse record bs) = .error e ↔ bs.length ≠ L.size ∧ e = .malformed ⟨record, L.size, bs.length⟩ := by
  cases h : L.parse record bs with
  | ok a =>
    have hlength : bs.length = L.size := (L.exists_parse_eq_ok_iff record bs).mp ⟨a, h⟩
    simp [hlength]
  | error flaw =>
    obtain ⟨hlength, rfl⟩ := (L.parse_eq_error_iff record bs flaw).mp h
    simp [hlength, eq_comm]

/-! ## Votes -/

namespace Vote

variable {tick : UInt32} {own : List Packet} {p : Packet}

/-- Reads the vote that a message holds. -/
def ofPayload (bs : Bytes) : Outcome Vote := .ofRecord (ofBytes bs)

/-- The votes for a tick among some messages, in their order, unless one of all votes among them is malformed. -/
def ofAnswer (tick : UInt32) (own : List Packet) : Outcome (List Vote) :=
  (Packet.decodeAll ofPayload (own.filter (·.is .broadcastVote))).map (·.filter fun v => v.outcome.tick = tick)

theorem hear_of_is (h : p.is .broadcastVote = true) (votes : List Vote) :
    (exchange tick).hear votes p = (ofPayload p.payload).map fun v =>
      .more (votes ++ [v].filter fun v => v.outcome.tick = tick) := by
  simp only [exchange, h, if_true, ofPayload]
  cases ofBytes p.payload with
  | error flaw => rfl
  | ok v => by_cases ht : v.outcome.tick = tick <;> simp [ht, Except.map]

theorem hear_of_not_is (h : p.is .broadcastVote = false) (votes : List Vote) :
    (exchange tick).hear votes p = .ok (.more votes) := by
  simp only [exchange, h, Bool.false_eq_true, if_false]

theorem hearAll_exchange (tick : UInt32) (votes : List Vote) (ps : List Packet) :
    (exchange tick).hearAll votes ps = (ofAnswer tick ps).map (votes ++ ·) := by
  induction ps generalizing votes with
  | nil => exact congrArg Except.ok (List.append_nil votes).symm
  | cons p ps ih =>
    rw [Exchange.hearAll]
    cases hp : p.is .broadcastVote with
    | false =>
      rw [hear_of_not_is hp, ofAnswer, List.filter_cons_of_neg (by simp [hp])]
      exact ih votes
    | true =>
      have hfilter : (p :: ps).filter (·.is .broadcastVote) = p :: ps.filter (·.is .broadcastVote) :=
        List.filter_cons_of_pos hp
      rw [hear_of_is hp, ofAnswer, hfilter]
      cases hparse : ofPayload p.payload with
      | error e =>
        rw [Packet.decodeAll_cons_of_error hparse]
        rfl
      | ok v =>
        rw [Packet.decodeAll_cons_of_ok hparse]
        refine (ih _).trans ?_
        unfold ofAnswer
        cases Packet.decodeAll ofPayload (ps.filter (·.is .broadcastVote)) with
        | error e => rfl
        | ok vs => by_cases ht : v.outcome.tick = tick <;> simp [ht, Except.map]

theorem run_of_unbroken {s : Session Peer} (h : s.Unbroken) (tick : UInt32) :
    ((Dialogue.once (exchange tick)).run s).1 = ofAnswer tick s.answer := by
  rw [Dialogue.run_once, h.run_fst _ (fits_request tick)]
  refine (hearAll_exchange tick [] s.answer).trans ?_
  cases ofAnswer tick s.answer <;> rfl

theorem ofPayload_eq_error_iff (bs : Bytes) (e : Error) :
    ofPayload bs = .error e ↔ bs.length ≠ 352 ∧ e = .malformed ⟨"vote", 352, bs.length⟩ := by
  have hsize : layout.size = 352 := rfl
  rw [← hsize]
  exact Outcome.ofRecord_parse_eq_error_iff layout "vote" bs e

/-- A vote of the wrong length makes the request for votes fail, whatever its tick, and nothing else does. -/
theorem ofAnswer_malformed_iff :
    (∃ flaw, ofAnswer tick own = .error (.malformed flaw)) ↔
      ∃ p ∈ own, p.is .broadcastVote = true ∧ p.payload.length ≠ 352 := by
  have hmap (e : Error) : ofAnswer tick own = .error e ↔
      Packet.decodeAll ofPayload (own.filter (·.is .broadcastVote)) = .error e := by
    unfold ofAnswer
    cases Packet.decodeAll ofPayload (own.filter (·.is .broadcastVote)) <;> simp [Except.map]
  simp only [hmap]
  constructor
  · rintro ⟨flaw, h⟩
    obtain ⟨p, hp, e, he⟩ := Packet.exists_decodeAll_error_iff.mp ⟨_, h⟩
    obtain ⟨hmem, hkind⟩ := List.mem_filter.mp hp
    exact ⟨p, hmem, hkind, ((ofPayload_eq_error_iff _ _).mp he).1⟩
  · rintro ⟨p, hmem, hkind, hlength⟩
    have hp : p ∈ own.filter (·.is .broadcastVote) := List.mem_filter.mpr ⟨hmem, hkind⟩
    obtain ⟨e, he⟩ := Packet.exists_decodeAll_error_iff.mpr
      ⟨p, hp, _, (ofPayload_eq_error_iff _ _).mpr ⟨hlength, rfl⟩⟩
    obtain ⟨-, q, -, -, -, hq⟩ := Packet.decodeAll_eq_error_iff.mp he
    obtain ⟨-, rfl⟩ := (ofPayload_eq_error_iff _ _).mp hq
    exact ⟨_, he⟩

end Vote

/-! ## Headers -/

namespace TickHeader

variable {tick : UInt32} {own : List Packet} {p : Packet} {h : TickHeader}

/-- The first header among some messages, unless it is malformed; none, if its tick was not produced. -/
def ofAnswer (own : List Packet) : Outcome (Option TickHeader) :=
  (Packet.first .broadcastTickHeader ofBytes own).map (·.filter fun h => !h.body.isEmpty)

theorem run_of_unbroken {s : Session Peer} (h : s.Unbroken) (tick : UInt32) :
    ((fetch tick).run s).1 = ofAnswer s.answer := by
  have hheard : (s.run (exchange tick)).1 = Packet.first .broadcastTickHeader ofBytes s.answer :=
    (h.run_fst _ (Location.fits_request_header tick)).trans ((takesFirst_exchange tick).hearAll_none s.answer)
  rw [Location.run_fetchHeader, ofAnswer, ← hheard]
  rcases s.run (exchange tick) with ⟨e | found, t⟩ <;> rfl

theorem ofAnswer_of_find? (h : own.find? (·.is .broadcastTickHeader) = some p) :
    ofAnswer own = (Outcome.ofRecord (ofBytes p.payload)).map fun h => (some h).filter fun h => !h.body.isEmpty := by
  simp only [ofAnswer, Packet.first, h]
  cases ofBytes p.payload <;> rfl

theorem ofAnswer_of_none (h : own.find? (·.is .broadcastTickHeader) = none) : ofAnswer own = .ok none := by
  simp only [ofAnswer, Packet.first, h]
  rfl

theorem ofRecord_ofBytes_eq_error_iff (bs : Bytes) (e : Error) :
    Outcome.ofRecord (ofBytes bs) = .error e ↔
      bs.length ≠ 41328 ∧ e = .malformed ⟨"tick header", 41328, bs.length⟩ := by
  have hsize : layout.size = 41328 := rfl
  rw [← hsize]
  exact Outcome.ofRecord_parse_eq_error_iff layout "tick header" bs e

/-- The first header of the wrong length makes the request fail, and nothing else does. -/
theorem ofAnswer_malformed_iff :
    (∃ flaw, ofAnswer own = .error (.malformed flaw)) ↔
      ∃ p, own.find? (·.is .broadcastTickHeader) = some p ∧ p.payload.length ≠ 41328 := by
  cases hfind : own.find? (·.is .broadcastTickHeader) with
  | none => simp [ofAnswer_of_none hfind]
  | some p =>
    rw [ofAnswer_of_find? hfind]
    simp only [Option.some.injEq, exists_eq_left']
    cases hparse : Outcome.ofRecord (ofBytes p.payload) with
    | ok h =>
      have hlength : ¬p.payload.length ≠ 41328 := fun hne => by
        cases hparse.symm.trans ((ofRecord_ofBytes_eq_error_iff _ _).mpr ⟨hne, rfl⟩)
      simp [Except.map, not_not.mp hlength]
    | error e =>
      obtain ⟨hlength, rfl⟩ := (ofRecord_ofBytes_eq_error_iff _ _).mp hparse
      exact ⟨fun _ => hlength, fun _ => ⟨_, rfl⟩⟩

/-- There is no header where none is sent, or the first one is of a tick that was not produced. -/
theorem ofAnswer_eq_none_iff :
    ofAnswer own = .ok none ↔ (∀ p ∈ own, p.is .broadcastTickHeader = false) ∨
      ∃ p h, own.find? (·.is .broadcastTickHeader) = some p ∧ ofBytes p.payload = .ok h ∧ h.body.epoch = 0 := by
  cases hfind : own.find? (·.is .broadcastTickHeader) with
  | none =>
    have hnone : ∀ p ∈ own, p.is .broadcastTickHeader = false := by
      simpa [List.find?_eq_none] using hfind
    exact iff_of_true (ofAnswer_of_none hfind) (.inl hnone)
  | some p =>
    have hsome : ¬∀ p ∈ own, p.is .broadcastTickHeader = false := fun hnone => by
      have hp := List.find?_some hfind
      rw [hnone p (List.mem_of_find?_eq_some hfind)] at hp
      cases hp
    rw [ofAnswer_of_find? hfind]
    cases hparse : ofBytes p.payload with
    | error flaw => simp [hsome, hparse, Except.map]
    | ok h => simp [hsome, hparse, Except.map, TickData.isEmpty]

end TickHeader

/-! ## Transactions -/

namespace Transaction

/-- The transactions that some messages begin with, as many as are expected, unless one of these is malformed. -/
def ofAnswer (expected : Nat) (own : List Packet) : Outcome (List Transaction) :=
  Packet.decodeAll ofBytes (Packet.leading .broadcastTransaction expected own)

theorem run_of_unbroken {s : Session Peer} (h : s.Unbroken) (tick : UInt32) {expected : Nat}
    (hexpected : 0 < expected) : ((fetch tick expected).run s).1 = ofAnswer expected s.answer := by
  have hheard : (s.run (exchange tick expected)).1.map Gathered.transactions = ofAnswer expected s.answer := by
    rw [h.run_fst _ (Location.fits_request_transactions tick expected)]
    refine (map_hearAll_exchange tick expected [] s.answer).trans ?_
    rw [List.length_nil, Nat.sub_zero, ← ofAnswer]
    cases ofAnswer expected s.answer <;> rfl
  rw [run_fetch (Nat.pos_iff_ne_zero.mp hexpected), ← hheard]
  rcases s.run (exchange tick expected) with ⟨e | gathered, t⟩ <;> rfl

end Transaction

/-! ## Reference answers -/

/-- **Reference answers.** Whatever messages, silences and failures are queued and whatever the nonce is: if the answer
does not break off, then

* the votes are those for the tick among the votes of the answer, in their order, and the request fails exactly if a
  vote of the answer, for any tick, is not 352 bytes long;
* the header is the first one of the answer, and the later ones are not read: the request fails exactly if the first
  one is not 41328 bytes long, and comes to nothing exactly if there is none or it is of epoch 0;
* the transactions are those that the answer begins with, as many as are expected: the request fails exactly as the
  first of these does that cannot be decoded, and no message behind them makes a difference. -/
theorem Session.Unbroken.fetched {s : Session Peer} (h : s.Unbroken) :
    (∀ tick,
      ((Dialogue.once (Vote.exchange tick)).run s).1 = Vote.ofAnswer tick s.answer ∧
      ((∃ flaw, ((Dialogue.once (Vote.exchange tick)).run s).1 = .error (.malformed flaw)) ↔
        ∃ p ∈ s.answer, p.is .broadcastVote = true ∧ p.payload.length ≠ 352)) ∧
    (∀ tick,
      ((TickHeader.fetch tick).run s).1 = TickHeader.ofAnswer s.answer ∧
      ((∃ flaw, ((TickHeader.fetch tick).run s).1 = .error (.malformed flaw)) ↔
        ∃ p, s.answer.find? (·.is .broadcastTickHeader) = some p ∧ p.payload.length ≠ 41328) ∧
      (((TickHeader.fetch tick).run s).1 = .ok none ↔
        (∀ p ∈ s.answer, p.is .broadcastTickHeader = false) ∨
          ∃ p header, s.answer.find? (·.is .broadcastTickHeader) = some p ∧
            TickHeader.ofBytes p.payload = .ok header ∧ header.body.epoch = 0)) ∧
    ∀ tick expected, 0 < expected →
      ((Transaction.fetch tick expected).run s).1 = Transaction.ofAnswer expected s.answer ∧
      (∀ e, ((Transaction.fetch tick expected).run s).1 = .error e ↔
        ∃ before p after,
          Packet.leading .broadcastTransaction expected s.answer = before ++ p :: after ∧
          (∀ q ∈ before, ∃ t, Transaction.ofBytes q.payload = .ok t) ∧ Transaction.ofBytes p.payload = .error e) ∧
      ∀ s' : Session Peer, s'.Unbroken →
        Packet.leading .broadcastTransaction expected s'.answer =
          Packet.leading .broadcastTransaction expected s.answer →
        ((Transaction.fetch tick expected).run s').1 = ((Transaction.fetch tick expected).run s).1 := by
  refine ⟨fun tick => ?votes, fun tick => ?header, fun tick expected hexpected => ?transactions⟩
  case votes =>
    rw [Vote.run_of_unbroken h]
    exact ⟨rfl, Vote.ofAnswer_malformed_iff⟩
  case header =>
    rw [TickHeader.run_of_unbroken h]
    exact ⟨rfl, TickHeader.ofAnswer_malformed_iff, TickHeader.ofAnswer_eq_none_iff⟩
  case transactions =>
    rw [Transaction.run_of_unbroken h tick hexpected]
    refine ⟨rfl, fun e => Packet.decodeAll_eq_error_iff, fun s' h' hsame => ?_⟩
    rw [Transaction.run_of_unbroken h' tick hexpected]
    exact congrArg (Packet.decodeAll Transaction.ofBytes) hsame

/-- An answer with votes for two ticks and, behind them, a transaction that is malformed. Before it comes a vote that
answers another request, and behind it one that is malformed. -/
def muddledNode : Peer :=
  .ofScript [.packet (Vote.packet 7 (Vote.forgedVote 1 5))]
    [.answer [.packet (Vote.packet 1 (Vote.forgedVote 3 6)), .packet (Vote.packet 1 Vote.signedVote),
      .packet (.holding .broadcastTransaction 1 [0]), Location.ending 1, .packet (.holding .broadcastVote 1 [])]]

theorem Session.Unbroken.fetched_muddledNode :
    let s := Session.start muddledNode Nonce.ofNat
    s.Unbroken ∧ ((Dialogue.once (Vote.exchange 5)).run s).1 = .ok [Vote.signedVote] ∧
      ((TickHeader.fetch 5).run s).1 = .ok none ∧ ((Transaction.fetch 5 3).run s).1 = .ok [] := by
  intro s
  have hunbroken : s.Unbroken := ⟨rfl, rfl⟩
  have hanswer : s.answer = [Vote.packet 1 (Vote.forgedVote 3 6), Vote.packet 1 Vote.signedVote,
      .holding .broadcastTransaction 1 [0]] := rfl
  obtain ⟨hvotes, hheader, htransactions⟩ := Session.Unbroken.fetched hunbroken
  refine ⟨hunbroken, (hvotes 5).1.trans ?_, (hheader 5).2.2.mpr (.inl ?_), (htransactions 5 3 (by decide)).1⟩
  · have hfilter : s.answer.filter (·.is .broadcastVote) =
        [Vote.packet 1 (Vote.forgedVote 3 6), Vote.packet 1 Vote.signedVote] := rfl
    have hread (v : Vote) : Vote.ofPayload (Vote.packet 1 v).payload = .ok v :=
      congrArg Outcome.ofRecord (Vote.ofBytes_packet 1 v)
    have hall : Packet.decodeAll Vote.ofPayload (s.answer.filter (·.is .broadcastVote)) =
        .ok [Vote.forgedVote 3 6, Vote.signedVote] := by
      rw [hfilter]
      exact Packet.decodeAll_eq_ok_iff.mpr (.cons (hread _) (.cons (hread _) .nil))
    rw [Vote.ofAnswer, hall]
    rfl
  · rw [hanswer]
    decide

end LightClient
