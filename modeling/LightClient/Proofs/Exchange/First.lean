import LightClient.Proofs.Exchange.Answer
import LightClient.Tick.Header
import LightClient.Tick.Info
import LightClient.Transaction.Status
/-!
# What is made of the messages of an answer

An exchange that succeeds has heard exactly the messages of its answer, one after the other
(`hearAll_of_run`). Where one record is asked for, a tick header, a report on a tick's transactions, a computor
list or the current tick, a node may give several: the first one counts, and if that is malformed the exchange fails
(`Packet.first`).
-/
namespace LightClient

variable {α β : Type}

namespace Exchange

/-- Hears some messages of an answer, up to the one with which it has heard enough. -/
def hearAll (e : Exchange β) : β → List Packet → Outcome β
  | state, [] => .ok state
  | state, p :: ps =>
      match e.hear state p with
      | .ok (.more state') => e.hearAll state' ps
      | .ok (.enough state') => .ok state'
      | .error err => .error err

theorem hearAll_of_follow {e : Exchange β} {nonce : UInt32} {state b : β} {es rest : List Event}
    (h : e.follow nonce state es = (.ok b, rest)) :
    e.hearAll state (Event.answer nonce es) = .ok b := by
  induction es generalizing state with
  | nil => cases h; rfl
  | cons event es ih =>
    cases event with
    | quiet => cases h; rfl
    | failure err => simp [follow] at h
    | packet p =>
      simp only [follow] at h
      simp only [Event.answer]
      split at h
      · rename_i hn
        rw [if_pos hn]
        exact ih h
      · rename_i hn
        rw [if_neg hn]
        split at h
        · rename_i hend
          cases h
          rw [if_pos hend]
          rfl
        · rename_i hend
          rw [if_neg hend, hearAll]
          rcases hear : e.hear state p with err | state' | state' <;> simp only [hear] at h ⊢
          · cases h
          · exact ih h
          · cases h
            rfl

/-- An exchange that reads every answer to its end. -/
def Patient (e : Exchange β) : Prop := ∀ state p b, e.hear state p ≠ .ok (.enough b)

/-- A patient exchange goes on behind some messages of the answer with what it made of them. -/
theorem Patient.follow_append {e : Exchange β} {nonce : UInt32} {ps : List Packet} {state b : β}
    (he : e.Patient) (hps : ∀ p ∈ ps, p.nonce = nonce ∧ p.isEnd = false) (h : e.hearAll state ps = .ok b)
    (es : List Event) : e.follow nonce state (ps.map .packet ++ es) = e.follow nonce b es := by
  induction ps generalizing state with
  | nil => cases h; rfl
  | cons p ps ih =>
    obtain ⟨⟨hn, hend⟩, hps⟩ := List.forall_mem_cons.mp hps
    simp only [List.map_cons, List.cons_append, follow, hn, hend, ne_eq, not_true_eq_false, if_false,
      Bool.false_eq_true]
    rw [hearAll] at h
    rcases hear : e.hear state p with err | state' | state' <;> simp only [hear] at h ⊢
    · cases h
    · exact ih hps h
    · exact absurd hear (he state p state')

/-- A patient exchange is done with an answer that consists of some messages once it has heard them. -/
theorem Patient.follow_map_packet {e : Exchange β} {nonce : UInt32} {ps : List Packet} {state b : β}
    (he : e.Patient) (hps : ∀ p ∈ ps, p.nonce = nonce ∧ p.isEnd = false) (h : e.hearAll state ps = .ok b) :
    e.follow nonce state (ps.map .packet) = (.ok b, []) := by
  have hdone := he.follow_append hps h []
  rwa [List.append_nil] at hdone

end Exchange

namespace Session

theorem hearAll_of_run {e : Exchange β} {s s' : Session Peer} {b : β} (h : s.run e = (.ok b, s')) :
    e.hearAll e.initial s.answer = .ok b :=
  Exchange.hearAll_of_follow (follow_of_run h)

/-- A request that fits into a message is refused by the node, or the client hears what is queued then. -/
theorem run_fst (e : Exchange β) (hfits : e.payload.length + Header.size < Header.maxTotal) (s : Session Peer) :
    (s.run e).1 =
      match s.link.refusal? with
      | some err => .error err
      | none => (e.follow s.nextNonce e.initial s.link.heard).1 := by
  have hrequest : Packet.make e.request.code s.nextNonce e.payload =
      .ok ⟨e.request.code, s.nextNonce, e.payload, hfits⟩ := dif_pos hfits
  rw [run_peer hrequest, Peer.refusal?]
  rcases s.link.responses with _ | ⟨err | events, later⟩ <;> rfl

end Session

/-! ## The first record of a kind -/

/-- The first record of a kind that some messages hold, if there is one; it may be malformed. -/
def Packet.first (kind : MessageType) (parse : Bytes → Except Malformed α) (messages : List Packet) :
    Outcome (Option α) :=
  match messages.find? (·.is kind) with
  | none => .ok none
  | some p => (Outcome.ofRecord (parse p.payload)).map some

theorem Packet.first_cons_of_is {kind : MessageType} {p : Packet} (h : p.is kind = true)
    (parse : Bytes → Except Malformed α) (ps : List Packet) :
    first kind parse (p :: ps) = (Outcome.ofRecord (parse p.payload)).map some := by
  simp only [first, List.find?_cons, h]

theorem Packet.first_cons_of_not_is {kind : MessageType} {p : Packet} (h : p.is kind = false)
    (parse : Bytes → Except Malformed α) (ps : List Packet) :
    first kind parse (p :: ps) = first kind parse ps := by
  simp only [first, List.find?_cons, h]

/-- The first record comes from one of the messages. -/
theorem Packet.exists_of_first {kind : MessageType} {parse : Bytes → Except Malformed α} {ps : List Packet} {a : α}
    (h : first kind parse ps = .ok (some a)) : ∃ p ∈ ps, p.is kind = true ∧ parse p.payload = .ok a := by
  rw [first] at h
  cases hfind : ps.find? (·.is kind) with
  | none => rw [hfind] at h; cases h
  | some p =>
    simp only [hfind] at h
    refine ⟨p, List.mem_of_find?_eq_some hfind, by simpa using List.find?_some hfind, ?_⟩
    cases hparse : parse p.payload with
    | error flaw => rw [hparse] at h; cases h
    | ok b =>
      simp only [hparse, Outcome.ofRecord_ok, Except.map, Except.ok.injEq, Option.some.injEq] at h
      rw [h]

namespace Exchange

/-- An exchange in which the first record of a kind counts, and what follows it is dropped. -/
structure TakesFirst (e : Exchange (Option α)) (kind : MessageType) (parse : Bytes → Except Malformed α) :
    Prop where
  keeps (a : α) (p : Packet) : e.hear (some a) p = .ok (.more (some a))
  passes (p : Packet) : p.is kind = false → e.hear none p = .ok (.more none)
  takes (p : Packet) : p.is kind = true →
    e.hear none p = (Outcome.ofRecord (parse p.payload)).map fun a => .more (some a)

namespace TakesFirst

variable {e : Exchange (Option α)} {kind : MessageType} {parse : Bytes → Except Malformed α}

theorem patient (h : e.TakesFirst kind parse) : e.Patient := by
  intro state p b hear
  cases state with
  | some a => rw [h.keeps] at hear; cases hear
  | none =>
    cases hp : p.is kind with
    | true =>
      rw [h.takes p hp] at hear
      cases hparse : parse p.payload <;> rw [hparse] at hear <;> cases hear
    | false => rw [h.passes p hp] at hear; cases hear

theorem hearAll_some (h : e.TakesFirst kind parse) (a : α) (ps : List Packet) :
    e.hearAll (some a) ps = .ok (some a) := by
  induction ps with
  | nil => rfl
  | cons p ps ih => rw [hearAll, h.keeps]; exact ih

theorem hearAll_none (h : e.TakesFirst kind parse) (ps : List Packet) :
    e.hearAll none ps = Packet.first kind parse ps := by
  induction ps with
  | nil => rfl
  | cons p ps ih =>
    cases hp : p.is kind with
    | true =>
      rw [hearAll, h.takes p hp, Packet.first_cons_of_is hp]
      cases hparse : parse p.payload with
      | ok a => simp only [Outcome.ofRecord_ok, Except.map, h.hearAll_some]
      | error flaw => rfl
    | false =>
      rw [hearAll, h.passes p hp, Packet.first_cons_of_not_is hp]
      exact ih

/-- The result of such an exchange is the first record in the answer. -/
theorem first_of_run {s s' : Session Peer} {found : Option α} (h : e.TakesFirst kind parse)
    (hinitial : e.initial = none) (hrun : s.run e = (.ok found, s')) :
    Packet.first kind parse s.answer = .ok found := by
  rw [← h.hearAll_none, ← hinitial]
  exact Session.hearAll_of_run hrun

end TakesFirst

end Exchange

theorem TickHeader.takesFirst_exchange (tick : UInt32) :
    (exchange tick).TakesFirst .broadcastTickHeader ofBytes where
  keeps _ _ := rfl
  passes p hp := by simp only [exchange, hp, Bool.false_eq_true, if_false]
  takes p hp := by
    simp only [exchange, hp, if_true]
    cases ofBytes p.payload <;> rfl

theorem TxStatus.takesFirst_exchange (tick : UInt32) : (exchange tick).TakesFirst .txStatus ofBytes where
  keeps _ _ := rfl
  passes p hp := by simp only [exchange, hp, Bool.false_eq_true, if_false]
  takes p hp := by
    simp only [exchange, hp, if_true]
    cases ofBytes p.payload <;> rfl

theorem ComputorSet.takesFirst_exchange (anchor : PublicKey) :
    (exchange anchor).TakesFirst .broadcastComputors (load anchor) where
  keeps _ _ := rfl
  passes p hp := by simp only [exchange, hp, Bool.false_eq_true, if_false]
  takes p hp := by
    simp only [exchange, hp, if_true]
    cases load anchor p.payload <;> rfl

namespace TickInfo

theorem hear_of_is {p : Packet} (h : p.is .tickInfo = true) (state : Option TickInfo) :
    exchange.hear state p = (Outcome.ofRecord (ofBytes p.payload)).map fun info => .enough (some info) := by
  simp only [exchange, h, if_true]
  cases ofBytes p.payload <;> rfl

theorem hear_of_not_is {p : Packet} (h : p.is .tickInfo = false) (state : Option TickInfo) :
    exchange.hear state p = .ok (.more none) := by
  simp only [exchange, h, Bool.false_eq_true, if_false]

theorem hearAll_exchange (ps : List Packet) :
    exchange.hearAll none ps = Packet.first .tickInfo ofBytes ps := by
  induction ps with
  | nil => rfl
  | cons p ps ih =>
    cases hp : p.is .tickInfo with
    | true =>
      rw [Exchange.hearAll, hear_of_is hp, Packet.first_cons_of_is hp]
      cases ofBytes p.payload <;> rfl
    | false =>
      rw [Exchange.hearAll, hear_of_not_is hp, Packet.first_cons_of_not_is hp]
      exact ih

end TickInfo

end LightClient
