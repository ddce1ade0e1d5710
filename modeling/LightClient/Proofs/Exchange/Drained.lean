import LightClient.Proofs.Locate.Node
/-!
# Stopping early and reading the rest

A client that has what it wants may stop hearing the answer there and read the rest of it unheard, so that the link is
clean for the next request (`Session.runDrained`). An exchange that goes on to the end of the answer, but makes nothing
of what comes after that point, does the same (`DeafOnce.run_eq`): it comes to the same result, and leaves the link as
the other does. This holds of the exchanges that take the first record of a kind and of the one that takes a number of
transactions.
-/
namespace LightClient

variable {α β σ : Type} [Transport σ]

/-- The exchange that stops at the message with which it is done. -/
def Exchange.stopWhen (e : Exchange β) (done : β → Bool) : Exchange β :=
  { e with
    hear := fun state p => (e.hear state p).map fun
      | .more b => if done b then .enough b else .more b
      | .enough b => .enough b }

/-- Sends the request of an exchange, hears the answer up to the message with which it is done, and then reads the
rest. -/
def Session.runDrained (e : Exchange β) (done : β → Bool) (s : Session σ) : Outcome β × Session σ :=
  match s.run (e.stopWhen done) with
  | (.ok b, s') =>
      if done b then
        let (outcome, s'') := s'.drain (s.nonces s.sent).val
        (outcome.map fun _ => b, s'')
      else (.ok b, s')
  | (.error err, s') => (.error err, s')

namespace Exchange

/-- An exchange that reads on to the end of the answer, but makes nothing of the messages that come once it is done. -/
structure DeafOnce (e : Exchange β) (done : β → Bool) : Prop where
  patient : e.Patient
  begins : done e.initial = false
  keeps {b : β} : done b = true → ∀ p, e.hear b p = .ok (.more b)

variable {e : Exchange β} {done : β → Bool}

/-- Once it is done, such an exchange reads the rest of the answer as a deaf one does. -/
theorem DeafOnce.listen_of_done (he : e.DeafOnce done) {b : β} (hb : done b = true) (nonce : UInt32) (s : σ) :
    e.listen nonce b s = ((deaf.listen nonce () s).1.map fun _ => b, (deaf.listen nonce () s).2) := by
  fun_induction deaf.listen nonce () s with
  | case1 _ s p s' hnext hend =>
    rw [listen_eq, hnext]
    simp only [hend, if_true, Except.map]
  | case2 _ s p s' hnext hend _ hear ih =>
    rw [listen_eq, hnext]
    simp only [if_neg hend, he.keeps hb]
    exact ih
  | case3 _ s p s' hnext hend _ hear => cases hear
  | case4 _ s p s' hnext hend err hear => cases hear
  | case5 _ s s' hnext =>
    rw [listen_eq, hnext]
    rfl
  | case6 _ s err s' hnext =>
    rw [listen_eq, hnext]
    rfl

/-- Until it is done, it hears what the exchange that stops there hears. Then it reads the rest. -/
theorem DeafOnce.listen_eq (he : e.DeafOnce done) {state : β} (hstate : done state = false) (nonce : UInt32) (s : σ) :
    e.listen nonce state s =
      match (e.stopWhen done).listen nonce state s with
      | (.ok b, s') =>
          if done b then ((deaf.listen nonce () s').1.map fun _ => b, (deaf.listen nonce () s').2) else (.ok b, s')
      | (.error err, s') => (.error err, s') := by
  fun_induction e.listen nonce state s with
  | case1 state s p s' hnext hend =>
    rw [Exchange.listen_eq, hnext]
    simp [hend, hstate]
  | case2 state s p s' hnext hend state' hear ih =>
    rw [Exchange.listen_eq (e.stopWhen done), hnext]
    have hstop : (e.stopWhen done).hear state p = .ok (if done state' then .enough state' else .more state') := by
      simp only [stopWhen, hear, Except.map]
    simp only [hend, hstop]
    cases hdone : done state' with
    | false => simpa [hdone] using ih hdone
    | true => simpa [hdone] using he.listen_of_done hdone nonce s'
  | case3 state s p s' hnext hend state' hear => exact absurd hear (he.patient state p state')
  | case4 state s p s' hnext hend err hear =>
    rw [Exchange.listen_eq, hnext]
    have hstop : (e.stopWhen done).hear state p = .error err := by simp only [stopWhen, hear, Except.map]
    simp [hend, hstop]
  | case5 state s s' hnext =>
    rw [Exchange.listen_eq, hnext]
    simp [hstate]
  | case6 state s err s' hnext =>
    rw [Exchange.listen_eq, hnext]

end Exchange

theorem Session.nonce_of_request {kind : UInt8} {payload : Bytes} {s s' : Session σ} {nonce : Nonce}
    (h : s.request kind payload = (.ok nonce, s')) : nonce = s.nonces s.sent := by
  rw [request] at h
  split at h
  · cases h
  · split at h <;> cases h
    rfl

/-- **Reading on is stopping early and reading the rest.** Over every link, the result and what is left of the link are
the same. -/
theorem Exchange.DeafOnce.run_eq {e : Exchange β} {done : β → Bool} (he : e.DeafOnce done) (s : Session σ) :
    s.run e = s.runDrained e done := by
  have hsent : s.request (e.stopWhen done).request.code (e.stopWhen done).payload =
      s.request e.request.code e.payload := rfl
  rw [Session.runDrained, Session.run, Session.run, hsent]
  rcases hrequest : s.request e.request.code e.payload with ⟨err | nonce, s'⟩
  · rfl
  · obtain rfl := Session.nonce_of_request hrequest
    have hinitial : (e.stopWhen done).initial = e.initial := rfl
    simp only [he.listen_eq he.begins, hinitial]
    rcases (e.stopWhen done).listen (s.nonces s.sent).val e.initial s'.link with ⟨err | b, link⟩
    · rfl
    · cases hdone : done b with
      | false => simp [hdone]
      | true => simp [hdone, Session.drain]

/-! ## The exchanges that stop early -/

/-- The first record of a kind is taken, and the rest is read unheard. -/
theorem Exchange.TakesFirst.deafOnce {e : Exchange (Option α)} {kind : MessageType}
    {parse : Bytes → Except Malformed α} (h : e.TakesFirst kind parse) (hinitial : e.initial = none) :
    e.DeafOnce Option.isSome where
  patient := h.patient
  begins := hinitial ▸ rfl
  keeps {found} hfound p := by
    obtain ⟨a, rfl⟩ := Option.isSome_iff_exists.mp hfound
    exact h.keeps a p

/-- Transactions are taken until there are as many as expected or a message of another type comes, and the rest is
read unheard. -/
theorem Transaction.deafOnce_exchange (tick : UInt32) {expected : Nat} (hexpected : 0 < expected) :
    (exchange tick expected).DeafOnce fun gathered =>
      !(gathered.taking && gathered.transactions.length < expected) where
  patient := patient_exchange tick expected
  begins := by simp [exchange, hexpected]
  keeps {gathered} hdone p := by
    have hsettled : (gathered.taking && decide (gathered.transactions.length < expected)) = false := by
      simpa only [Bool.not_eq_true'] using hdone
    simp only [exchange, hsettled, Bool.false_eq_true, if_false]

/-- Reports, computor lists and transactions are asked for as if the client stopped at what it wants and read the rest
of the answer unheard. -/
theorem Session.run_eq_runDrained (s : Session σ) :
    (∀ tick, s.run (TxStatus.exchange tick) = s.runDrained (TxStatus.exchange tick) Option.isSome) ∧
    (∀ anchor, s.run (ComputorSet.exchange anchor) = s.runDrained (ComputorSet.exchange anchor) Option.isSome) ∧
    ∀ tick expected, 0 < expected →
      s.run (Transaction.exchange tick expected) = s.runDrained (Transaction.exchange tick expected)
        fun gathered => !(gathered.taking && gathered.transactions.length < expected) :=
  ⟨fun tick => ((TxStatus.takesFirst_exchange tick).deafOnce rfl).run_eq s,
    fun anchor => ((ComputorSet.takesFirst_exchange anchor).deafOnce rfl).run_eq s,
    fun tick _ hexpected => (Transaction.deafOnce_exchange tick hexpected).run_eq s⟩

end LightClient
