import LightClient.Proofs.Exchange.First
import Mathlib.Data.List.Forall2
/-!
# Answers that do not break off

An answer ends with its last message, with a silence, or with a failure that breaks it off (`Event.brokenBy?`). Where
it is not broken off, an exchange comes to what is made of the messages of the answer, and to nothing else
(`Session.Unbroken.run_fst`). The exchange for the current tick may be over before the answer is broken off
(`TickInfo.run_exchange`).

Some messages are decoded one after the other by `Packet.decodeAll`, up to the first that is malformed.
-/
namespace LightClient

variable {α β : Type}

/-! ## How an answer ends -/

/-- The failure that breaks off the answer to the request with a nonce, if one does. -/
def Event.brokenBy? (nonce : UInt32) : List Event → Option Error
  | .packet p :: es => if p.nonce = nonce ∧ p.isEnd then none else brokenBy? nonce es
  | .failure err :: _ => some err
  | _ => none

/-- The node takes the next request, and its answer is not broken off. -/
structure Session.Unbroken (s : Session Peer) : Prop where
  taken : s.link.refusal? = none
  ends : Event.brokenBy? s.nextNonce s.link.heard = none

theorem Exchange.follow_of_unbroken {e : Exchange β} {nonce : UInt32} {es : List Event}
    (h : Event.brokenBy? nonce es = none) (state : β) :
    (e.follow nonce state es).1 = e.hearAll state (Event.answer nonce es) := by
  induction es generalizing state with
  | nil => rfl
  | cons event es ih =>
    cases event with
    | quiet => rfl
    | failure err => cases h
    | packet p =>
      rw [Event.brokenBy?] at h
      rw [follow, Event.answer]
      by_cases hn : p.nonce = nonce
      · rw [if_neg (not_not_intro hn), if_neg (not_not_intro hn)]
        by_cases hend : p.isEnd = true
        · rw [if_pos hend, if_pos hend]
          rfl
        · rw [if_neg fun hlast => hend hlast.2] at h
          rw [if_neg hend, if_neg hend, hearAll]
          rcases e.hear state p with err | state' | state'
          · rfl
          · exact ih h state'
          · rfl
      · rw [if_neg fun hlast => hn hlast.1] at h
        rw [if_pos hn, if_pos hn]
        exact ih h state

theorem Session.Unbroken.run_fst {s : Session Peer} (h : s.Unbroken) (e : Exchange β)
    (hfits : e.payload.length + Header.size < Header.maxTotal) : (s.run e).1 = e.hearAll e.initial s.answer := by
  rw [Session.run_fst e hfits s, h.taken]
  exact Exchange.follow_of_unbroken h.ends e.initial

/-! ## The current tick -/

namespace TickInfo

theorem ofBytes_of_length_ne {bs : Bytes} (h : bs.length ≠ 16) :
    ofBytes bs = .error ⟨"current tick info", 16, bs.length⟩ := dif_neg h

/-- The first account of the current tick in an answer ends the exchange, whatever the link would do afterwards. Without
one the answer counts to its end. -/
theorem follow_exchange (nonce : UInt32) (es : List Event) :
    (exchange.follow nonce none es).1 =
      match (Event.answer nonce es).find? (·.is .tickInfo) with
      | some p => (Outcome.ofRecord (ofBytes p.payload)).map some
      | none =>
          match Event.brokenBy? nonce es with
          | some err => .error err
          | none => .ok none := by
  induction es with
  | nil => rfl
  | cons event es ih =>
    cases event with
    | quiet => rfl
    | failure err => rfl
    | packet p =>
      by_cases hn : p.nonce = nonce
      · cases hend : p.isEnd with
        | true => simp [Exchange.follow, Event.answer, Event.brokenBy?, hn, hend]
        | false =>
          simp only [Exchange.follow, Event.answer, Event.brokenBy?, if_neg (not_not_intro hn), hend,
            Bool.false_eq_true, and_false, if_false, List.find?_cons]
          cases hp : p.is .tickInfo with
          | true =>
            rw [hear_of_is hp]
            cases hinfo : ofBytes p.payload <;> simp only [hinfo] <;> rfl
          | false =>
            rw [hear_of_not_is hp]
            exact ih
      · have hgoesOn : ¬ (p.nonce = nonce ∧ p.isEnd = true) := fun hlast => hn hlast.1
        simp only [Exchange.follow, Event.answer, Event.brokenBy?, if_neg hgoesOn, if_pos hn]
        exact ih

/-- What asking a node for its current tick comes to. -/
theorem run_exchange (s : Session Peer) :
    (s.run exchange).1 =
      match s.link.refusal? with
      | some err => .error err
      | none =>
          match s.answer.find? (·.is .tickInfo) with
          | some p => (Outcome.ofRecord (ofBytes p.payload)).map some
          | none =>
              match Event.brokenBy? s.nextNonce s.link.heard with
              | some err => .error err
              | none => .ok none := by
  rw [Session.run_fst exchange (by decide) s]
  cases s.link.refusal? with
  | some err => rfl
  | none => exact follow_exchange s.nextNonce s.link.heard

end TickInfo

/-! ## Messages decoded one after the other -/

namespace Packet

variable {parse : Bytes → Outcome α} {p : Packet} {ps : List Packet}

/-- What the messages hold, in their order, unless one is malformed: then the first such one decides. -/
def decodeAll (parse : Bytes → Outcome α) (messages : List Packet) : Outcome (List α) :=
  messages.mapM fun p => parse p.payload

theorem decodeAll_cons_of_ok {a : α} (h : parse p.payload = .ok a) (ps : List Packet) :
    decodeAll parse (p :: ps) = (decodeAll parse ps).map (a :: ·) := by
  rw [decodeAll, List.mapM_cons, h]
  change (decodeAll parse ps >>= _) = _
  cases decodeAll parse ps <;> rfl

theorem decodeAll_cons_of_error {e : Error} (h : parse p.payload = .error e) (ps : List Packet) :
    decodeAll parse (p :: ps) = .error e := by
  rw [decodeAll, List.mapM_cons, h]
  rfl

theorem decodeAll_cons_eq_error_iff {a : α} {e : Error} (h : parse p.payload = .ok a) :
    decodeAll parse (p :: ps) = .error e ↔ decodeAll parse ps = .error e := by
  rw [decodeAll_cons_of_ok h]
  cases decodeAll parse ps <;> simp [Except.map]

theorem decodeAll_eq_ok_iff {as : List α} :
    decodeAll parse ps = .ok as ↔ List.Forall₂ (fun p a => parse p.payload = .ok a) ps as := by
  induction ps generalizing as with
  | nil =>
    rw [List.forall₂_nil_left_iff]
    exact ⟨fun h => (Except.ok.inj h).symm, fun h => h ▸ rfl⟩
  | cons p ps ih =>
    cases hp : parse p.payload with
    | error e =>
      rw [decodeAll_cons_of_error hp]
      constructor
      · rintro ⟨⟩
      · rintro (_ | ⟨hok, -⟩)
        cases hp.symm.trans hok
    | ok a =>
      rw [decodeAll_cons_of_ok hp]
      constructor
      · intro h
        cases hrest : decodeAll parse ps with
        | error e => rw [hrest] at h; cases h
        | ok bs =>
          rw [hrest] at h
          cases h
          exact .cons hp (ih.mp hrest)
      · rintro (_ | ⟨hok, hrest⟩)
        cases hp.symm.trans hok
        rw [ih.mpr hrest]
        rfl

/-- Decoding fails with the error of the first message that cannot be decoded. -/
theorem decodeAll_eq_error_iff {e : Error} :
    decodeAll parse ps = .error e ↔ ∃ before p after, ps = before ++ p :: after ∧
      (∀ q ∈ before, ∃ a, parse q.payload = .ok a) ∧ parse p.payload = .error e := by
  induction ps with
  | nil =>
    constructor
    · rintro ⟨⟩
    · rintro ⟨before, p, after, hsplit, -⟩
      cases before <;> cases hsplit
  | cons q qs ih =>
    cases hq : parse q.payload with
    | error e' =>
      rw [decodeAll_cons_of_error hq]
      constructor
      · rintro ⟨⟩
        exact ⟨[], q, qs, rfl, fun _ h => absurd h List.not_mem_nil, hq⟩
      · rintro ⟨before, p, after, hsplit, hbefore, hp⟩
        rcases before with _ | ⟨r, before⟩ <;> cases hsplit
        · exact congrArg Except.error (Except.error.inj (hq.symm.trans hp))
        · obtain ⟨a, ha⟩ := hbefore q List.mem_cons_self
          cases hq.symm.trans ha
    | ok a =>
      rw [decodeAll_cons_eq_error_iff hq, ih]
      constructor
      · rintro ⟨before, p, after, rfl, hbefore, hp⟩
        exact ⟨q :: before, p, after, rfl, List.forall_mem_cons.mpr ⟨⟨a, hq⟩, hbefore⟩, hp⟩
      · rintro ⟨before, p, after, hsplit, hbefore, hp⟩
        rcases before with _ | ⟨r, before⟩ <;> cases hsplit
        · cases hq.symm.trans hp
        · exact ⟨before, p, after, rfl, (List.forall_mem_cons.mp hbefore).2, hp⟩

/-- Decoding fails exactly if some message cannot be decoded. -/
theorem exists_decodeAll_error_iff :
    (∃ e, decodeAll parse ps = .error e) ↔ ∃ p ∈ ps, ∃ e, parse p.payload = .error e := by
  induction ps with
  | nil =>
    constructor
    · rintro ⟨e, ⟨⟩⟩
    · rintro ⟨p, hp, -⟩
      exact absurd hp List.not_mem_nil
  | cons p ps ih =>
    simp only [List.mem_cons, exists_eq_or_imp]
    cases hp : parse p.payload with
    | error e => exact ⟨fun _ => .inl ⟨e, rfl⟩, fun _ => ⟨e, decodeAll_cons_of_error hp ps⟩⟩
    | ok a =>
      simp only [decodeAll_cons_eq_error_iff hp, ih, reduceCtorEq, exists_false, false_or]

end Packet

end LightClient
