import LightClient.Proofs.Exchange.First
/-!
# Watched links

A `Watched` link records what passes over it: every request that the client sends, also one that is refused, every
message that it receives, and every failure of the link. Watching changes nothing (`Dialogue.run_unwatched`). One
exchange adds a `Round` to the record, and its result is what the round says and nothing else (`Session.exists_round`):
the failure, if the link failed, or what is made of the messages that answer the request (`Round.result`).
-/
namespace LightClient

/-- What passes over a link. -/
inductive Act where
  | sent (request : Packet)
  | received (message : Packet)
  | failed (error : Error)
  deriving DecidableEq

namespace Act

/-- The failure that an outcome leaves in the record, if it is one. -/
def ofFailure {α : Type} : Outcome α → List Act
  | .ok _ => []
  | .error e => [failed e]

/-- What comes of sending, as it is recorded. -/
def ofSent (request : Packet) (outcome : Outcome Unit) : List Act := sent request :: ofFailure outcome

/-- What comes of receiving, as it is recorded. A silence leaves no trace. -/
def ofReceived : Outcome (Option Packet) → List Act
  | .ok (some p) => [received p]
  | .ok none => []
  | .error e => [failed e]

end Act

/-- A request, the messages that are received after it, and the failure of the link that ends them, if one does. -/
structure Round where
  request : Packet
  messages : List Packet
  failure : Option Error
  deriving DecidableEq

namespace Round

/-- A round as it passes over the link. -/
def acts (r : Round) : List Act :=
  .sent r.request :: (r.messages.map .received ++ r.failure.toList.map .failed)

/-- What is asked for: the type and the payload of the request. -/
def asked (r : Round) : UInt8 × Bytes := (r.request.kind, r.request.payload)

/-- The messages that answer the request. -/
def answer (r : Round) : List Packet := Event.answer r.request.nonce (r.messages.map .packet)

/-- What an exchange comes to in a round. -/
def result {β : Type} (r : Round) (e : Exchange β) : Outcome β :=
  match r.failure with
  | some err => .error err
  | none => e.hearAll e.initial r.answer

theorem hearAll_of_result {β : Type} {r : Round} {e : Exchange β} {b : β} (h : r.result e = .ok b) :
    e.hearAll e.initial r.answer = .ok b := by
  rw [result] at h
  split at h
  · cases h
  · exact h

end Round

/-- A link with a record of what has passed over it. -/
structure Watched (σ : Type) where
  link : σ
  acts : List Act

variable {α β σ : Type} [Transport σ]

instance : Transport (Watched σ) where
  send request w :=
    ((Transport.send request w.link).1,
      ⟨(Transport.send request w.link).2, w.acts ++ Act.ofSent request (Transport.send request w.link).1⟩)
  receive w :=
    ((Transport.receive w.link).1,
      ⟨(Transport.receive w.link).2, w.acts ++ Act.ofReceived (Transport.receive w.link).1⟩)
  pending w := Transport.pending w.link
  pending_receive h := by
    obtain ⟨houtcome, rfl⟩ := Prod.mk.inj h
    exact Transport.pending_receive (Prod.ext houtcome rfl)

/-! ## Watching changes nothing -/

namespace Watched

theorem send_eq (request : Packet) (w : Watched σ) :
    Transport.send request w =
      ((Transport.send request w.link).1,
        ⟨(Transport.send request w.link).2, w.acts ++ Act.ofSent request (Transport.send request w.link).1⟩) := rfl

theorem receive_link {w w' : Watched σ} {o : Outcome (Option Packet)} (h : Transport.receive w = (o, w')) :
    Transport.receive w.link = (o, w'.link) := by
  obtain ⟨rfl, rfl⟩ := Prod.mk.inj h
  rfl

theorem acts_receive {w w' : Watched σ} {o : Outcome (Option Packet)} (h : Transport.receive w = (o, w')) :
    w'.acts = w.acts ++ Act.ofReceived o := by
  obtain ⟨rfl, rfl⟩ := Prod.mk.inj h
  rfl

theorem nextAnswer_link (nonce : UInt32) (w : Watched σ) :
    Transport.nextAnswer nonce w.link = ((Transport.nextAnswer nonce w).1, (Transport.nextAnswer nonce w).2.link) := by
  fun_induction Transport.nextAnswer nonce w with
  | case1 w p w' hreceive hnonce => rw [Transport.nextAnswer_eq, receive_link hreceive]; exact if_pos hnonce
  | case2 w p w' hreceive hnonce ih =>
    rw [Transport.nextAnswer_eq, receive_link hreceive]
    exact (if_neg hnonce).trans ih
  | case3 w w' hreceive => rw [Transport.nextAnswer_eq, receive_link hreceive]
  | case4 w err w' hreceive => rw [Transport.nextAnswer_eq, receive_link hreceive]

theorem listen_link (e : Exchange β) (nonce : UInt32) (state : β) (w : Watched σ) :
    e.listen nonce state w.link = ((e.listen nonce state w).1, (e.listen nonce state w).2.link) := by
  fun_induction Exchange.listen e nonce state w with
  | case1 state w p w' hnext hend =>
    rw [Exchange.listen_eq, nextAnswer_link, hnext]
    exact if_pos hend
  | case2 state w p w' hnext hend state' hear ih =>
    rw [Exchange.listen_eq, nextAnswer_link, hnext]
    simp only [hend, Bool.false_eq_true, if_false, hear]
    exact ih
  | case3 state w p w' hnext hend state' hear =>
    rw [Exchange.listen_eq, nextAnswer_link, hnext]
    simp only [hend, Bool.false_eq_true, if_false, hear]
  | case4 state w p w' hnext hend err hear =>
    rw [Exchange.listen_eq, nextAnswer_link, hnext]
    simp only [hend, Bool.false_eq_true, if_false, hear]
  | case5 state w w' hnext => rw [Exchange.listen_eq, nextAnswer_link, hnext]
  | case6 state w err w' hnext => rw [Exchange.listen_eq, nextAnswer_link, hnext]

/-- The messages that are received up to the next one of an answer, and the failure of the link if that comes first.
The answer to the request begins with the next one, if there is one and it is not the end. -/
theorem acts_nextAnswer {nonce : UInt32} {w w' : Watched σ} {o : Outcome (Option Packet)}
    (h : Transport.nextAnswer nonce w = (o, w')) :
    ∃ messages : List Packet,
      w'.acts = w.acts ++ (messages.map .received ++ Act.ofFailure o) ∧
      ∀ es, Event.answer nonce (messages.map .packet ++ es) =
        match o with
        | .ok (some p) => if p.isEnd then [] else p :: Event.answer nonce es
        | _ => Event.answer nonce es := by
  fun_induction Transport.nextAnswer nonce w with
  | case1 w p w₁ hreceive hnonce =>
    cases h
    exact ⟨[p], acts_receive hreceive, fun es => if_neg (not_not_intro hnonce)⟩
  | case2 w p w₁ hreceive hnonce ih =>
    obtain ⟨messages, hacts, hanswer⟩ := ih h
    refine ⟨p :: messages, ?_, fun es => (if_pos hnonce).trans (hanswer es)⟩
    rw [hacts, acts_receive hreceive, List.append_assoc]
    rfl
  | case3 w w₁ hreceive =>
    cases h
    exact ⟨[], acts_receive hreceive, fun es => rfl⟩
  | case4 w err w₁ hreceive =>
    cases h
    exact ⟨[], acts_receive hreceive, fun es => rfl⟩

/-- Listening adds some messages to the record, and the failure of the link if it fails; the outcome is this failure or
what is heard of the messages. -/
theorem acts_listen (e : Exchange β) (nonce : UInt32) (state : β) (w : Watched σ) :
    ∃ (messages : List Packet) (failure : Option Error),
      (e.listen nonce state w).2.acts = w.acts ++ (messages.map .received ++ failure.toList.map .failed) ∧
      (e.listen nonce state w).1 =
        match failure with
        | some err => .error err
        | none => e.hearAll state (Event.answer nonce (messages.map .packet)) := by
  fun_induction Exchange.listen e nonce state w with
  | case1 state w p w₁ hnext hend =>
    obtain ⟨messages, hacts, hanswer⟩ := acts_nextAnswer hnext
    have hlast := (hanswer []).trans (if_pos hend)
    rw [List.append_nil] at hlast
    exact ⟨messages, none, hacts, by simp only [hlast, Exchange.hearAll]⟩
  | case2 state w p w₁ hnext hend state' hear ih =>
    obtain ⟨messages, hacts, hanswer⟩ := acts_nextAnswer hnext
    obtain ⟨later, failure, hlater, houtcome⟩ := ih
    have hmore := (hanswer (later.map .packet)).trans (if_neg hend)
    refine ⟨messages ++ later, failure, ?_, ?_⟩
    · rw [hlater, hacts, Act.ofFailure, List.append_nil, List.map_append, List.append_assoc, List.append_assoc]
    · rw [houtcome, List.map_append, hmore, Exchange.hearAll, hear]
  | case3 state w p w₁ hnext hend state' hear =>
    obtain ⟨messages, hacts, hanswer⟩ := acts_nextAnswer hnext
    have hlast := (hanswer []).trans (if_neg hend)
    rw [List.append_nil] at hlast
    exact ⟨messages, none, hacts, by simp only [hlast, Exchange.hearAll, hear]⟩
  | case4 state w p w₁ hnext hend err hear =>
    obtain ⟨messages, hacts, hanswer⟩ := acts_nextAnswer hnext
    have hlast := (hanswer []).trans (if_neg hend)
    rw [List.append_nil] at hlast
    exact ⟨messages, none, hacts, by simp only [hlast, Exchange.hearAll, hear]⟩
  | case5 state w w₁ hnext =>
    obtain ⟨messages, hacts, hanswer⟩ := acts_nextAnswer hnext
    have hlast := hanswer []
    rw [List.append_nil] at hlast
    exact ⟨messages, none, hacts, by simp only [hlast, Event.answer, Exchange.hearAll]⟩
  | case6 state w err w₁ hnext =>
    obtain ⟨messages, hacts, -⟩ := acts_nextAnswer hnext
    exact ⟨messages, some err, hacts, rfl⟩

end Watched

namespace Session

/-- A session over a link that is watched from now on. -/
def watched (s : Session σ) : Session (Watched σ) := ⟨⟨s.link, []⟩, s.nonces, s.sent⟩

/-- The session without the record. -/
def unwatched (s : Session (Watched σ)) : Session σ := ⟨s.link.link, s.nonces, s.sent⟩

theorem run_unwatched (e : Exchange β) (s : Session (Watched σ)) :
    s.unwatched.run e = ((s.run e).1, (s.run e).2.unwatched) := by
  simp only [run, request, unwatched]
  cases hfits : Packet.make e.request.code (s.nonces s.sent).val e.payload with
  | error violation => rfl
  | ok packet =>
    simp only [Watched.send_eq]
    rcases hsend : Transport.send packet s.link.link with ⟨err | _, link⟩
    · rfl
    · have hlisten :=
        Watched.listen_link e (s.nonces s.sent).val e.initial ⟨link, s.link.acts ++ Act.ofSent packet (.ok ())⟩
      simp only [hlisten]

/-- An exchange adds a round to the record, its request and what is received after it. Its result is what it comes to in
this round. -/
theorem exists_round {e : Exchange β} (hfits : e.payload.length + Header.size < Header.maxTotal)
    (s : Session (Watched σ)) :
    ∃ r : Round, r.asked = (e.request.code, e.payload) ∧ (s.run e).2.link.acts = s.link.acts ++ r.acts ∧
      (s.run e).1 = r.result e := by
  let q : Packet := ⟨e.request.code, (s.nonces s.sent).val, e.payload, hfits⟩
  have hrequest : Packet.make e.request.code (s.nonces s.sent).val e.payload = .ok q := dif_pos hfits
  simp only [run, request, hrequest, Watched.send_eq]
  rcases Transport.send q s.link.link with ⟨err | ⟨⟩, link⟩
  · exact ⟨⟨q, [], some err⟩, rfl, rfl, rfl⟩
  · obtain ⟨messages, failure, hacts, houtcome⟩ :=
      Watched.acts_listen e (s.nonces s.sent).val e.initial ⟨link, s.link.acts ++ Act.ofSent q (.ok ())⟩
    exact ⟨⟨q, messages, failure⟩, rfl, hacts.trans (List.append_assoc ..), houtcome⟩

end Session

namespace Dialogue

theorem run_unwatched (d : Dialogue α) (s : Session (Watched σ)) :
    d.run s.unwatched = ((d.run s).1, (d.run s).2.unwatched) := by
  induction d generalizing s with
  | done outcome => rfl
  | pause ms next ih => exact ih s
  | ask exchange next ih =>
    rw [run, run, Session.run_unwatched]
    rcases s.run exchange with ⟨err | b, s'⟩
    · rfl
    · exact ih b s'

/-- What passes over the link when a dialogue is held. -/
def acts (d : Dialogue α) (s : Session σ) : List Act := (d.run s.watched).2.link.acts

end Dialogue

end LightClient
