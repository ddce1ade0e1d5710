import LightClient.Proofs.Exchange.Unbroken
import LightClient.Transaction.Basic
/-!
# Which transactions are taken of an answer

An answer to the request for a tick's transactions may hold anything. What is taken of it are the messages that it
begins with, up to the first of another kind and no more than are expected, each decoded (`map_hearAll_exchange`,
`decoded_of_run_fetch`). So every transaction that was taken comes from a message among these
(`Decoded.exists_message`).
-/
namespace LightClient

/-- The messages of one kind that some messages begin with, at most `n` of them. -/
def Packet.leading (kind : MessageType) (n : Nat) (messages : List Packet) : List Packet :=
  (messages.takeWhile (·.is kind)).take n

namespace Packet

variable {kind : MessageType} {p : Packet}

theorem leading_zero (kind : MessageType) (ps : List Packet) : leading kind 0 ps = [] := List.take_zero

theorem leading_cons_of_is (h : p.is kind = true) (n : Nat) (ps : List Packet) :
    leading kind (n + 1) (p :: ps) = p :: leading kind n ps := by
  simp only [leading, List.takeWhile_cons, h, if_true, List.take_succ_cons]

theorem leading_cons_of_not_is (h : p.is kind = false) (n : Nat) (ps : List Packet) :
    leading kind n (p :: ps) = [] := by
  simp only [leading, List.takeWhile_cons, h, Bool.false_eq_true, if_false, List.take_nil]

end Packet

namespace Transaction

variable {tick : UInt32} {expected : Nat} {got : List Transaction} {gathered : Gathered} {ps : List Packet}

/-- Messages and the transactions that they hold, in the same order. -/
abbrev Decoded (messages : List Packet) (transactions : List Transaction) : Prop :=
  List.Forall₂ (fun p t => ofBytes p.payload = .ok t) messages transactions

theorem Decoded.exists_message {messages : List Packet} {transactions : List Transaction} {t : Transaction}
    (h : Decoded messages transactions) (ht : t ∈ transactions) :
    ∃ p ∈ messages, ofBytes p.payload = .ok t := by
  induction h with
  | nil => cases ht
  | cons hfirst _ ih =>
    rcases List.mem_cons.mp ht with rfl | ht
    · exact ⟨_, List.mem_cons_self, hfirst⟩
    · obtain ⟨p, hp, hdecoded⟩ := ih ht
      exact ⟨p, List.mem_cons_of_mem _ hp, hdecoded⟩

/-- When no further transaction is taken, the rest of the answer changes nothing. -/
theorem hearAll_of_not_taking (h : (gathered.taking && gathered.transactions.length < expected) = false)
    (ps : List Packet) : (exchange tick expected).hearAll gathered ps = .ok gathered := by
  induction ps with
  | nil => rfl
  | cons p ps ih =>
    have hear : (exchange tick expected).hear gathered p = .ok (.more gathered) := by
      simp only [exchange, h, Bool.false_eq_true, if_false]
    rw [Exchange.hearAll, hear]
    exact ih

/-- The transactions that the leading messages hold are taken on top of those that were got before, unless one of
these messages is malformed. What comes behind them is not decoded. -/
theorem map_hearAll_exchange (tick : UInt32) (expected : Nat) (got : List Transaction) (ps : List Packet) :
    ((exchange tick expected).hearAll ⟨got, true⟩ ps).map Gathered.transactions =
      (Packet.decodeAll ofBytes (Packet.leading .broadcastTransaction (expected - got.length) ps)).map (got ++ ·) := by
  induction ps generalizing got with
  | nil =>
    have hnone : Packet.leading .broadcastTransaction (expected - got.length) [] = [] := List.take_nil
    rw [hnone]
    exact congrArg Except.ok (List.append_nil got).symm
  | cons p ps ih =>
    by_cases hlt : got.length < expected
    · obtain ⟨more, hmore⟩ : ∃ more, expected - got.length = more + 1 := ⟨expected - got.length - 1, by omega⟩
      cases hp : p.is .broadcastTransaction with
      | true =>
        rw [hmore, Packet.leading_cons_of_is hp]
        cases hparse : ofBytes p.payload with
        | error e =>
          have hear : (exchange tick expected).hear ⟨got, true⟩ p = .error e := by
            simp only [exchange, Bool.true_and, decide_eq_true hlt, if_true, hp, hparse, Except.map]
          rw [Exchange.hearAll, hear, Packet.decodeAll_cons_of_error hparse]
          rfl
        | ok t =>
          have hear : (exchange tick expected).hear ⟨got, true⟩ p = .ok (.more ⟨got ++ [t], true⟩) := by
            simp only [exchange, Bool.true_and, decide_eq_true hlt, if_true, hp, hparse, Except.map]
          have hleft : expected - (got ++ [t]).length = more := by
            rw [List.length_append, List.length_singleton]
            omega
          have hrest := ih (got ++ [t])
          rw [hleft] at hrest
          rw [Exchange.hearAll, hear, Packet.decodeAll_cons_of_ok hparse]
          refine hrest.trans ?_
          cases Packet.decodeAll ofBytes (Packet.leading .broadcastTransaction more ps) with
          | error e => rfl
          | ok new => exact congrArg Except.ok (List.append_assoc ..)
      | false =>
        have hear : (exchange tick expected).hear ⟨got, true⟩ p = .ok (.more ⟨got, false⟩) := by
          simp only [exchange, Bool.true_and, decide_eq_true hlt, if_true, hp, Bool.false_eq_true, if_false]
        have hdone : (exchange tick expected).hearAll ⟨got, false⟩ ps = .ok ⟨got, false⟩ :=
          hearAll_of_not_taking (Bool.false_and _) ps
        rw [Exchange.hearAll, hear, Packet.leading_cons_of_not_is hp]
        simp only [hdone]
        exact congrArg Except.ok (List.append_nil got).symm
    · rw [hearAll_of_not_taking (by simpa using hlt), Nat.sub_eq_zero_of_le (Nat.not_lt.mp hlt), Packet.leading_zero]
      exact congrArg Except.ok (List.append_nil got).symm

theorem decoded_of_hearAll (h : (exchange tick expected).hearAll ⟨got, true⟩ ps = .ok gathered) :
    ∃ new, gathered.transactions = got ++ new ∧
      Decoded (Packet.leading .broadcastTransaction (expected - got.length) ps) new := by
  have hall := map_hearAll_exchange tick expected got ps
  rw [h] at hall
  cases hnew : Packet.decodeAll ofBytes (Packet.leading .broadcastTransaction (expected - got.length) ps) with
  | error e => rw [hnew] at hall; cases hall
  | ok new =>
    rw [hnew] at hall
    exact ⟨new, Except.ok.inj hall, Packet.decodeAll_eq_ok_iff.mp hnew⟩

/-- Fetching asks for the transactions if any are expected. -/
theorem run_fetch {σ : Type} [Transport σ] (hexpected : expected ≠ 0) (tick : UInt32) (s : Session σ) :
    (fetch tick expected).run s =
      match s.run (exchange tick expected) with
      | (.error e, t) => (.error e, t)
      | (.ok gathered, t) => (.ok gathered.transactions, t) := by
  rw [fetch, if_neg hexpected]
  refine (Dialogue.run_once_bind _ _ s).trans ?_
  rcases s.run (exchange tick expected) with ⟨e | gathered, t⟩ <;> rfl

theorem run_fetch_of_run {σ : Type} [Transport σ] {s s' : Session σ} (hexpected : expected ≠ 0)
    (h : s.run (exchange tick expected) = (.ok gathered, s')) :
    (fetch tick expected).run s = (.ok gathered.transactions, s') := by
  rw [run_fetch hexpected, h]

/-- The transactions of a tick are the messages that the answer begins with, decoded. -/
theorem decoded_of_run_fetch {s s' : Session Peer} {transactions : List Transaction}
    (h : (fetch tick expected).run s = (.ok transactions, s')) :
    Decoded (Packet.leading .broadcastTransaction expected s.answer) transactions := by
  by_cases hexpected : expected = 0
  · subst hexpected
    cases h
    rw [Packet.leading_zero]
    exact .nil
  · rw [run_fetch hexpected] at h
    rcases hgathered : s.run (exchange tick expected) with ⟨e | gathered, t⟩ <;> rw [hgathered] at h <;> cases h
    obtain ⟨new, hnew, hdecoded⟩ := decoded_of_hearAll (Session.hearAll_of_run hgathered)
    rw [hnew, List.nil_append]
    exact hdecoded

end Transaction

end LightClient
