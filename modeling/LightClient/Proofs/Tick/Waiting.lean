import LightClient.Proofs.Exchange.Watched
import LightClient.Proofs.Locate.Node
/-!
# Waiting for a tick

The client polls: it asks for the current tick again and again. What comes of its polls, were it to go on for ever, is
`Session.poll`; the first poll that settles the matter is the last one it makes, unless its patience ends before
(`run_waitFrom`). So the polls are counted exactly, on the link as well as by the caller, whatever the node does
(`TickInfo.waits_exactly`).
-/
namespace LightClient

variable {σ : Type} [Transport σ]

/-! ## Polls -/

namespace Session

/-- A session after some polls. -/
def afterPolls (s : Session σ) : Nat → Session σ
  | 0 => s
  | n + 1 => ((s.afterPolls n).run TickInfo.exchange).2

/-- What comes of a poll that has `n` others before it. -/
def poll (s : Session σ) (n : Nat) : Outcome (Option TickInfo) := ((s.afterPolls n).run TickInfo.exchange).1

theorem run_afterPolls (s : Session σ) (n : Nat) :
    (s.afterPolls n).run TickInfo.exchange = (s.poll n, s.afterPolls (n + 1)) := rfl

theorem afterPolls_succ' (s : Session σ) (n : Nat) :
    s.afterPolls (n + 1) = (s.run TickInfo.exchange).2.afterPolls n := by
  induction n with
  | zero => rfl
  | succ n ih => rw [afterPolls, ih, afterPolls]

theorem poll_succ (s : Session σ) (n : Nat) : s.poll (n + 1) = (s.run TickInfo.exchange).2.poll n := by
  rw [poll, afterPolls_succ', poll]

theorem afterPolls_unwatched (s : Session (Watched σ)) (n : Nat) :
    s.unwatched.afterPolls n = (s.afterPolls n).unwatched := by
  induction n with
  | zero => rfl
  | succ n ih => rw [afterPolls, ih, run_unwatched, afterPolls]

theorem poll_watched (s : Session σ) (n : Nat) : s.watched.poll n = s.poll n := by
  have h := run_unwatched TickInfo.exchange (s.watched.afterPolls n)
  rw [← afterPolls_unwatched] at h
  exact (congrArg Prod.fst h).symm

end Session

/-- What passes over the link in some polls: as many requests for the current tick, each with what is received after
it. -/
def TickInfo.PolledTimes (n : Nat) (acts : List Act) : Prop :=
  ∃ rounds : List Round, rounds.length = n ∧ (∀ r ∈ rounds, r.asked = (MessageType.requestTickInfo.code, [])) ∧
    acts = rounds.flatMap Round.acts

theorem Session.polledTimes_afterPolls (s : Session σ) (n : Nat) :
    TickInfo.PolledTimes n (s.watched.afterPolls n).link.acts := by
  induction n with
  | zero => exact ⟨[], rfl, fun r hr => absurd hr List.not_mem_nil, rfl⟩
  | succ n ih =>
    obtain ⟨rounds, hlength, hasked, hacts⟩ := ih
    obtain ⟨r, hr, hround, -⟩ := exists_round (e := TickInfo.exchange) (by decide) (s.watched.afterPolls n)
    refine ⟨rounds ++ [r], ?_, ?_, ?_⟩
    · rw [List.length_append, hlength, List.length_singleton]
    · exact List.forall_mem_append.mpr ⟨hasked, List.forall_mem_singleton.mpr hr⟩
    · rw [afterPolls, hround, hacts, List.flatMap_append, List.flatMap_singleton]

namespace TickInfo

/-! ## Polls that settle the matter -/

/-- A poll ends the waiting for a tick: it fails, or a tick past that one is reported. -/
def Settles (tick : UInt32) : Outcome (Option TickInfo) → Prop
  | .error _ => True
  | .ok info => ∃ i ∈ info, tick < i.tick

/-- How the waiting ends with a poll that has `n` others before it. -/
def endsWith (tick : UInt32) (n : Nat) (o : Outcome (Option TickInfo)) : Outcome Waited :=
  o.map fun info =>
    match past? tick info with
    | some i => ⟨some i, n⟩
    | none => ⟨none, n + 1⟩

variable {tick : UInt32} {n : Nat}

theorem not_settles_none (tick : UInt32) : ¬Settles tick (.ok none) := by
  rintro ⟨i, ⟨⟩, -⟩

theorem not_settles_of_le {i : TickInfo} (h : i.tick ≤ tick) : ¬Settles tick (.ok (some i)) := by
  rintro ⟨i, ⟨⟩, hlt⟩
  exact absurd hlt (UInt32.not_lt.mpr h)

theorem past?_of_lt {i : TickInfo} (h : tick < i.tick) : past? tick (some i) = some i := by
  simp [past?, h]

theorem past?_eq_none_iff {info : Option TickInfo} : past? tick info = none ↔ ¬Settles tick (.ok info) := by
  simp only [past?, Option.filter_eq_none_iff, decide_eq_true_eq, Settles, Option.mem_def, not_exists, not_and]

theorem endsWith_of_not_settles {o : Outcome (Option TickInfo)} (h : ¬Settles tick o) :
    endsWith tick n o = .ok ⟨none, n + 1⟩ := by
  cases o with
  | error e => exact absurd trivial h
  | ok info => simp only [endsWith, Except.map, past?_eq_none_iff.mpr h]

/-- A poll that settles the matter ends the waiting with its error, or with the tick that it reports. -/
theorem endsWith_of_settles {o : Outcome (Option TickInfo)} (h : Settles tick o) (n : Nat) :
    (∃ e, o = .error e ∧ endsWith tick n o = .error e) ∨
      ∃ i, o = .ok (some i) ∧ tick < i.tick ∧ endsWith tick n o = .ok ⟨some i, n⟩ := by
  cases o with
  | error e => exact .inl ⟨e, rfl, rfl⟩
  | ok info =>
    obtain ⟨i, rfl, hlt⟩ := h
    refine .inr ⟨i, rfl, hlt, ?_⟩
    simp only [endsWith, Except.map, past?_of_lt hlt]

/-- One poll that does not settle the matter makes no other difference than another. -/
theorem endsWith_congr {o o' : Outcome (Option TickInfo)} (h : o' = o ∨ ¬Settles tick o' ∧ ¬Settles tick o) (n : Nat) :
    endsWith tick n o' = endsWith tick n o := by
  obtain rfl | ⟨h', h⟩ := h
  · rfl
  · rw [endsWith_of_not_settles h', endsWith_of_not_settles h]

/-! ## One poll after the other -/

variable {allows : UInt32 → Bool} {interval more : Nat} {attempt : UInt32} {s : Session σ}

/-- A poll is the last one if it settles the matter, or if no further wait is allowed. -/
theorem run_waitFrom_last (h : Settles tick (s.poll attempt.toNat) ∨ allows attempt = false) :
    (waitFrom allows interval tick more attempt).run (s.afterPolls attempt.toNat) =
      (endsWith tick attempt.toNat (s.poll attempt.toNat), s.afterPolls (attempt.toNat + 1)) := by
  cases hpoll : s.poll attempt.toNat with
  | error e => cases more <;> rw [waitFrom, Dialogue.run, s.run_afterPolls, hpoll] <;> rfl
  | ok info =>
    cases hpast : past? tick info with
    | some i =>
      cases more <;> rw [waitFrom, Dialogue.run, s.run_afterPolls, hpoll] <;>
        simp only [endsWith, Except.map, hpast, Dialogue.run]
    | none =>
      have hunsettled : ¬Settles tick (s.poll attempt.toNat) := hpoll ▸ past?_eq_none_iff.mp hpast
      have hforbidden : allows attempt = false := h.resolve_left hunsettled
      cases more <;> rw [waitFrom, Dialogue.run, s.run_afterPolls, hpoll] <;>
        simp only [endsWith, Except.map, hpast, hforbidden, Bool.false_eq_true, if_false, Dialogue.run]

/-- After any other poll the client waits, and polls again. -/
theorem run_waitFrom_more (h : ¬Settles tick (s.poll attempt.toNat)) (hallows : allows attempt = true) :
    (waitFrom allows interval tick (more + 1) attempt).run (s.afterPolls attempt.toNat) =
      (waitFrom allows interval tick more (attempt + 1)).run (s.afterPolls (attempt.toNat + 1)) := by
  rw [waitFrom, Dialogue.run, s.run_afterPolls]
  cases hpoll : s.poll attempt.toNat with
  | error e => exact absurd (hpoll ▸ trivial) h
  | ok info =>
    rw [hpoll] at h
    simp only [past?_eq_none_iff.mpr h, hallows, if_true]
    rfl

/-- The waits are counted without overflow up to any bound that is itself counted. -/
theorem toNat_succ_of_lt {bound : Nat} (h : attempt.toNat < bound) (hbound : bound < UInt32.size) :
    (attempt + 1).toNat = attempt.toNat + 1 := by
  rw [UInt32.toNat_add]
  exact Nat.mod_eq_of_lt (Nat.lt_of_le_of_lt h hbound)

/-- The client polls up to the first poll that settles the matter or behind which no further wait is allowed. -/
theorem run_waitFrom {k : Nat} (hk : k < UInt32.size)
    (hopen : ∀ j < k, ¬Settles tick (s.poll j) ∧ allows (.ofNat j) = true)
    (hlast : Settles tick (s.poll k) ∨ allows (.ofNat k) = false)
    (hle : attempt.toNat ≤ k) (hmore : attempt.toNat + more = UInt32.size - 1) :
    (waitFrom allows interval tick more attempt).run (s.afterPolls attempt.toNat) =
      (endsWith tick k (s.poll k), s.afterPolls (k + 1)) := by
  induction more generalizing attempt with
  | zero =>
    obtain rfl : attempt.toNat = k := by omega
    rw [UInt32.ofNat_toNat] at hlast
    exact run_waitFrom_last hlast
  | succ more ih =>
    rcases Nat.eq_or_lt_of_le hle with rfl | hlt
    · rw [UInt32.ofNat_toNat] at hlast
      exact run_waitFrom_last hlast
    · obtain ⟨hunsettled, hallows⟩ := hopen attempt.toNat hlt
      rw [UInt32.ofNat_toNat] at hallows
      have hnext : (attempt + 1).toNat = attempt.toNat + 1 := toNat_succ_of_lt hlt hk
      rw [run_waitFrom_more hunsettled hallows, ← hnext]
      exact ih (by omega) (by omega)

/-! ## Waiting with patience for some waits -/

/-- Asks until a tick has passed, as a caller's policy allows it. -/
def waitUnder (policy : WaitPolicy) (tick : UInt32) : Dialogue Waited := waitFor policy.allows policy.interval tick

/-- The first poll that settles the matter. -/
structure FirstToSettle (tick : UInt32) (s : Session σ) (k : Nat) : Prop where
  settles : Settles tick (s.poll k)
  before : ∀ j < k, ¬Settles tick (s.poll j)

/-- With patience for `m` waits, the poll that has `k` others before it is the last: none of these settles the matter,
and it does or has `m` before it. -/
structure LastPoll (tick m : UInt32) (s : Session σ) (k : Nat) : Prop where
  le : k ≤ m.toNat
  before : ∀ j < k, ¬Settles tick (s.poll j)
  settles_or : Settles tick (s.poll k) ∨ k = m.toNat

variable {milliseconds : Nat} {m : UInt32} {k : Nat}

theorem exists_lastPoll (tick m : UInt32) (s : Session σ) : ∃ k, LastPoll tick m s k := by
  suffices hbounded : ∀ bound : Nat, ∃ k ≤ bound, (∀ j < k, ¬Settles tick (s.poll j)) ∧
      (Settles tick (s.poll k) ∨ k = bound) by
    obtain ⟨k, hle, hbefore, hlast⟩ := hbounded m.toNat
    exact ⟨k, hle, hbefore, hlast⟩
  intro bound
  induction bound with
  | zero => exact ⟨0, Nat.le_refl 0, fun j hj => absurd hj (Nat.not_lt_zero j), .inr rfl⟩
  | succ bound ih =>
    obtain ⟨k, hk, hbefore, hsettles | rfl⟩ := ih
    · exact ⟨k, Nat.le_succ_of_le hk, hbefore, .inl hsettles⟩
    · by_cases hsettles : Settles tick (s.poll k)
      · exact ⟨k, Nat.le_succ k, hbefore, .inl hsettles⟩
      · refine ⟨k + 1, Nat.le_refl _, fun j hj => ?_, .inr rfl⟩
        rcases Nat.lt_succ_iff_lt_or_eq.mp hj with hlt | rfl
        · exact hbefore j hlt
        · exact hsettles

theorem LastPoll.congr {σ' : Type} [Transport σ'] {s' : Session σ'} (h : LastPoll tick m s k)
    (hsame : ∀ n, Settles tick (s'.poll n) ↔ Settles tick (s.poll n)) : LastPoll tick m s' k where
  le := h.le
  before j hj := (hsame j).not.mpr (h.before j hj)
  settles_or := h.settles_or.imp_left (hsame k).mpr

theorem allows_ofNat (h : k ≤ m.toNat) :
    (WaitPolicy.every milliseconds (some m)).allows (.ofNat k) = decide (k < m.toNat) := by
  have hk : (UInt32.ofNat k).toNat = k := UInt32.toNat_ofNat_of_lt' (Nat.lt_of_le_of_lt h m.toNat_lt)
  simp only [WaitPolicy.allows, UInt32.lt_iff_toNat_lt, hk]

/-- The waiting ends with the last poll. -/
theorem run_waitUnder (h : LastPoll tick m s k) :
    (waitUnder (.every milliseconds (some m)) tick).run s = (endsWith tick k (s.poll k), s.afterPolls (k + 1)) := by
  show (waitFrom _ milliseconds tick (UInt32.size - 1) 0).run (s.afterPolls (0 : UInt32).toNat) = _
  refine run_waitFrom (Nat.lt_of_le_of_lt h.le m.toNat_lt) (fun j hj => ⟨h.before j hj, ?_⟩) ?_
    (Nat.zero_le _) (Nat.zero_add _)
  · rw [allows_ofNat (Nat.le_trans (Nat.le_of_lt hj) h.le)]
    exact decide_eq_true (Nat.lt_of_lt_of_le hj h.le)
  · refine h.settles_or.imp_right fun hkm => ?_
    rw [allows_ofNat h.le, hkm]
    exact decide_eq_false (Nat.lt_irrefl _)

/-- The client makes as many requests as it polls. -/
theorem polledTimes_waitUnder (h : LastPoll tick m s k) :
    PolledTimes (k + 1) ((waitUnder (.every milliseconds (some m)) tick).acts s) := by
  have hwatched : LastPoll tick m s.watched k := h.congr fun n => by rw [s.poll_watched]
  rw [Dialogue.acts, run_waitUnder hwatched]
  exact s.polledTimes_afterPolls (k + 1)

/-- Who never waits does as who has no patience left. -/
theorem waitUnder_never (milliseconds : Nat) (tick : UInt32) :
    waitUnder .never tick = waitUnder (.every milliseconds (some 0)) tick := by
  obtain ⟨more, hmore⟩ : ∃ more, UInt32.size - 1 = more + 1 := ⟨_, rfl⟩
  have hnever : WaitPolicy.never.allows 0 = false := rfl
  have hnone : (WaitPolicy.every milliseconds (some 0)).allows 0 = false := rfl
  simp only [waitUnder, waitFor, hmore, waitFrom, hnever, hnone, Bool.false_eq_true, if_false]

theorem toNat_succ_of_allows (h : (WaitPolicy.every milliseconds (some m)).allows attempt = true) :
    (attempt + 1).toNat = attempt.toNat + 1 :=
  toNat_succ_of_lt (UInt32.lt_iff_toNat_lt.mp (of_decide_eq_true h)) m.toNat_lt

/-! ## A node that reports in turn -/

/-- What a node does with a poll that it does not answer, or answers with an account. -/
def replyWith (nonce : UInt32) : Option TickInfo → Response
  | none => .answer []
  | some info => .answer [.packet (.holding .tickInfo nonce info.toBytes)]

/-- What a node does with the polls from the one with number `n` on. -/
def repliesFrom (nonces : Nat → Nonce) : Nat → List (Option TickInfo) → List Response
  | _, [] => []
  | n, report :: reports => replyWith (nonces n).val report :: repliesFrom nonces (n + 1) reports

theorem poll_repliesFrom (nonces : Nat → Nonce) (reports : List (Option TickInfo)) (n : Nat) (arrived : List Packet)
    (j : Nat) (hj : j < reports.length) :
    (⟨⟨[], repliesFrom nonces n reports, arrived⟩, nonces, n⟩ : Session Peer).poll j = .ok reports[j] := by
  induction reports generalizing n arrived j with
  | nil => cases hj
  | cons report reports ih =>
    obtain ⟨arrived', hrun⟩ : ∃ arrived',
        (⟨⟨[], repliesFrom nonces n (report :: reports), arrived⟩, nonces, n⟩ : Session Peer).run exchange =
          (.ok report, ⟨⟨[], repliesFrom nonces (n + 1) reports, arrived'⟩, nonces, n + 1⟩) := by
      cases report with
      | none => exact Session.run_of_answer (by decide) rfl _ arrived
      | some info => exact Session.run_of_answer (by decide) (Location.follow_info (nonces n).val info []) _ arrived
    cases j with
    | zero => exact congrArg Prod.fst hrun
    | succ j =>
      rw [Session.poll_succ, hrun]
      exact ih (n + 1) arrived' j (Nat.lt_of_succ_lt_succ hj)

/-- A node that does not answer the first poll, reports tick 5 to the second and tick 6 to the third. -/
def lateNode : Peer :=
  .ofScript [] (repliesFrom Nonce.ofNat 0 [none, some ⟨0, 0, 5, 0, 0, 0⟩, some ⟨0, 0, 6, 0, 0, 0⟩])

/-! ## How often a node is asked -/

/-- **Bounded polling.** With patience for `m` waits, however large `m` is and whatever the node does,

* the first poll that fails or reports a tick past the wanted one is the last, if it has no more than `m` others before
  it: its error or its report is what the waiting comes to;
* without such a poll the client gives up after `m + 1` polls;
* as many requests for the current tick are made as there are polls, and no others.

A poll that the node does not answer makes no other difference than one that reports an earlier tick. Never to wait is
to have patience for no wait. The number of waits does not overflow. -/
theorem waits_exactly (s : Session σ) (tick m : UInt32) (milliseconds : Nat) :
    let wait := waitUnder (.every milliseconds (some m)) tick
    (∀ k ≤ m.toNat, FirstToSettle tick s k →
      ((∃ e, s.poll k = .error e ∧ (wait.run s).1 = .error e) ∨
        ∃ i, s.poll k = .ok (some i) ∧ tick < i.tick ∧ (wait.run s).1 = .ok ⟨some i, k⟩) ∧
      PolledTimes (k + 1) (wait.acts s)) ∧
    ((∀ k ≤ m.toNat, ¬FirstToSettle tick s k) →
      (wait.run s).1 = .ok ⟨none, m.toNat + 1⟩ ∧ PolledTimes (m.toNat + 1) (wait.acts s)) ∧
    (∀ s' : Session σ,
      (∀ n, s'.poll n = s.poll n ∨ s'.poll n = .ok none ∧ ∃ i, s.poll n = .ok (some i) ∧ i.tick ≤ tick) →
      (wait.run s').1 = (wait.run s).1) ∧
    waitUnder .never tick = waitUnder (.every milliseconds (some 0)) tick ∧
    ∀ attempt, (WaitPolicy.every milliseconds (some m)).allows attempt = true →
      (attempt + 1).toNat = attempt.toNat + 1 := by
  intro wait
  refine ⟨?settled, ?unsettled, ?unanswered, waitUnder_never milliseconds tick, fun _ => toNat_succ_of_allows⟩
  case settled =>
    rintro k hk ⟨hsettles, hbefore⟩
    have hlast : LastPoll tick m s k := ⟨hk, hbefore, .inl hsettles⟩
    rw [run_waitUnder hlast]
    exact ⟨endsWith_of_settles hsettles k, polledTimes_waitUnder hlast⟩
  case unsettled =>
    intro hnone
    obtain ⟨k, hlast⟩ := exists_lastPoll tick m s
    have hunsettled : ¬Settles tick (s.poll k) := fun hsettles => hnone k hlast.le ⟨hsettles, hlast.before⟩
    obtain rfl := hlast.settles_or.resolve_left hunsettled
    rw [run_waitUnder hlast]
    exact ⟨endsWith_of_not_settles hunsettled, polledTimes_waitUnder hlast⟩
  case unanswered =>
    intro s' hsame
    have halike (n : Nat) : s'.poll n = s.poll n ∨ ¬Settles tick (s'.poll n) ∧ ¬Settles tick (s.poll n) := by
      refine (hsame n).imp_right ?_
      rintro ⟨hnone, i, hi, hle⟩
      exact ⟨hnone ▸ not_settles_none tick, hi ▸ not_settles_of_le hle⟩
    obtain ⟨k, hlast⟩ := exists_lastPoll tick m s
    have hlast' : LastPoll tick m s' k := by
      refine hlast.congr fun n => ?_
      obtain heq | ⟨h', h⟩ := halike n
      · rw [heq]
      · exact iff_of_false h' h
    rw [run_waitUnder hlast, run_waitUnder hlast']
    exact endsWith_congr (halike k) k

/-- Patience for two waits reaches the third poll, patience for one does not. -/
theorem waits_exactly_lateNode :
    let s := Session.start lateNode Nonce.ofNat
    ((waitUnder (.every 10 (some 2)) 5).run s).1 = .ok ⟨some ⟨0, 0, 6, 0, 0, 0⟩, 2⟩ ∧
      ((waitUnder (.every 10 (some 1)) 5).run s).1 = .ok ⟨none, 2⟩ := by
  intro s
  have hpoll := poll_repliesFrom Nonce.ofNat [none, some ⟨0, 0, 5, 0, 0, 0⟩, some ⟨0, 0, 6, 0, 0, 0⟩] 0 []
  have hthird : s.poll 2 = .ok (some ⟨0, 0, 6, 0, 0, 0⟩) := hpoll 2 (by decide)
  have hearly : ∀ j < 2, ¬Settles 5 (s.poll j) := by
    intro j hj
    obtain rfl | rfl : j = 0 ∨ j = 1 := by omega
    · exact hpoll 0 (by decide) ▸ not_settles_none 5
    · exact hpoll 1 (by decide) ▸ not_settles_of_le (by decide)
  have hsettles : FirstToSettle 5 s 2 := ⟨hthird ▸ ⟨_, rfl, by decide⟩, hearly⟩
  constructor
  · obtain ⟨⟨e, herror, -⟩ | ⟨i, hi, -, hwaited⟩, -⟩ := (waits_exactly s 5 2 10).1 2 (by decide) hsettles
    · cases hthird.symm.trans herror
    · cases hthird.symm.trans hi
      exact hwaited
  · have hnone : ∀ k ≤ (1 : UInt32).toNat, ¬FirstToSettle 5 s k :=
      fun k hk hfirst => hearly k (Nat.lt_succ_of_le hk) hfirst.settles
    exact ((waits_exactly s 5 1 10).2.1 hnone).1

end TickInfo

end LightClient
