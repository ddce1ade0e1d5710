import LightClient.Proofs.Stream.Steady
import LightClient.Proofs.Wire.Header
import LightClient.Wire.Framing
/-!
# Which messages a stream carries

`Next bs outcome rest` says what the bytes `bs` hold first, as the form of a message has it: nothing, a whole
message, a corrupted header, or a message that is cut off in the header or in the payload. Every byte string
holds one of these (`exists_next`), and it is what receiving gives off a steady stream, however short its reads
are (`receive_of_next`).

`Receives s ps last` is what a caller does who receives until there is nothing more or a failure. This ends on
every stream (`receives_iff`); off a steady one it gives the messages with which the bytes begin, as many as
there are, and how it ends depends on what is left behind the last of them (`receives_exact`).
-/
namespace LightClient.Framing

/-- What receiving finds at the beginning of some bytes, and what it leaves of them. -/
inductive Next : Bytes → Outcome (Option Packet) → Bytes → Prop where
  /-- Nothing is left. -/
  | nothing : Next [] (.ok none) []
  /-- A whole message comes first. -/
  | message (p : Packet) (rest : Bytes) : Next (p.bytes ++ rest) (.ok (some p)) rest
  /-- The header announces an impossible size. -/
  | corrupted (h : Header) (rest : Bytes) (impossible : h.isCorrupted = true) :
      Next (h.bytes ++ rest) (.error (.protocolViolation (.corrupted h.bytes))) rest
  /-- The bytes end inside the header. -/
  | inHeader (bs : Bytes) (begun : bs ≠ []) (cut : bs.length < Header.size) :
      Next bs (.error (.connectivity .endOfStream)) []
  /-- The bytes end inside the payload. -/
  | inPayload (h : Header) (rest : Bytes) (sound : h.isCorrupted = false) (cut : rest.length < h.payloadSize) :
      Next (h.bytes ++ rest) (.error (.connectivity .endOfStream)) []

variable {s s' : Source} {bs rest : Bytes} {h : Header} {ps : List Packet} {p : Packet} {last : Outcome Unit}
  {outcome : Outcome (Option Packet)}

/-! ## Every byte string holds something next -/

theorem exists_next (bs : Bytes) : ∃ outcome rest, Next bs outcome rest := by
  by_cases hnone : bs = []
  · subst hnone
    exact ⟨_, _, .nothing⟩
  by_cases hshort : bs.length < Header.size
  · exact ⟨_, _, .inHeader bs hnone hshort⟩
  obtain ⟨h, tail, rfl⟩ := Header.layout.exists_bytes_append (Nat.not_lt.mp hshort)
  cases hsound : h.isCorrupted with
  | true => exact ⟨_, _, .corrupted h tail hsound⟩
  | false =>
    by_cases hcut : tail.length < h.payloadSize
    · exact ⟨_, _, .inPayload h tail hsound hcut⟩
    -- The header and the payload behind it are the frame of a message.
    let f : Frame := ⟨h, tail.take h.payloadSize, hsound, List.length_take_of_le (Nat.not_lt.mp hcut)⟩
    have hbytes : Header.layout.bytes h ++ tail = f.toPacket.bytes ++ tail.drop h.payloadSize := by
      rw [f.bytes_toPacket]
      calc Header.layout.bytes h ++ tail
          = h.bytes ++ (tail.take h.payloadSize ++ tail.drop h.payloadSize) := by
            rw [List.take_append_drop]
            rfl
        _ = f.bytes ++ tail.drop h.payloadSize := by
            rw [← List.append_assoc]
            rfl
    rw [hbytes]
    exact ⟨_, _, .message f.toPacket _⟩

/-! ## Receiving gives it -/

/-- The first read of a message gives a piece of it, of whatever length. -/
theorem receive_of_steady (hs : s.Steady bs) (hbegun : bs ≠ []) :
    ∃ m s', m ≤ Header.size ∧ m ≤ bs.length ∧ receive s = afterFirst (bs.take m) s' ∧ s'.Steady (bs.drop m) := by
  obtain ⟨s', ⟨hbs, -, -⟩ | ⟨m, -, hle, hlen, hread, hs'⟩⟩ := Source.read_of_steady hs (by decide : 0 < Header.size)
  · exact absurd hbs hbegun
  · exact ⟨m, s', hle, hlen, by simp only [receive, hread], hs'⟩

theorem receive_of_short (hs : s.Steady bs) (hbegun : bs ≠ []) (hcut : bs.length < Header.size) :
    ∃ s', receive s = (.error (.connectivity .endOfStream), s') ∧ s'.Steady [] := by
  obtain ⟨m, s₁, hle, hlen, hreceive, hs₁⟩ := receive_of_steady hs hbegun
  have hfirst : (bs.take m).length = m := List.length_take_of_le hlen
  obtain ⟨s₂, hread, hs₂⟩ := Source.readExact_of_steady hs₁ (Header.size - m)
  rw [if_pos (by rw [List.length_drop]; omega)] at hread
  rw [List.drop_drop, List.drop_of_length_le (by omega)] at hs₂
  exact ⟨s₂, by simp only [hreceive, afterFirst, hfirst, hread], hs₂⟩

/-- Once the header is there, the payload is read. -/
theorem receive_of_header (hs : s.Steady (h.bytes ++ rest)) :
    ∃ s', receive s = payload h h.bytes s' ∧ s'.Steady rest := by
  have hlength : h.bytes.length = Header.size := h.length_bytes
  have hbegun : h.bytes ++ rest ≠ [] := by
    rw [← List.length_pos_iff, List.length_append, hlength]
    exact Nat.lt_of_lt_of_le (by decide) (Nat.le_add_right _ _)
  obtain ⟨m, s₁, hle, hlen, hreceive, hs₁⟩ := receive_of_steady hs hbegun
  have hfirst : ((h.bytes ++ rest).take m).length = m := List.length_take_of_le hlen
  obtain ⟨s₂, hread, hs₂⟩ := Source.readExact_of_steady hs₁ (Header.size - m)
  rw [if_neg (by rw [List.length_drop, List.length_append]; omega)] at hread
  rw [List.drop_drop, Nat.add_sub_cancel' hle, List.drop_left' hlength] at hs₂
  have hparse : Header.layout.parse "header" h.bytes = .ok h := Header.layout.parse_bytes _ h
  -- The pieces of the header make the whole header again.
  have hwhole : (h.bytes ++ rest).take m ++ ((h.bytes ++ rest).drop m).take (Header.size - m) = h.bytes := by
    rw [← List.take_add, Nat.add_sub_cancel' hle, List.take_left' hlength]
  exact ⟨s₂, by simp only [hreceive, afterFirst, hfirst, hread, hwhole, hparse], hs₂⟩

theorem receive_of_next (hnext : Next bs outcome rest) (hs : s.Steady bs) :
    ∃ s', receive s = (outcome, s') ∧ s'.Steady rest := by
  cases hnext with
  | nothing =>
    obtain ⟨s', ⟨-, hread, hs'⟩ | ⟨m, hpos, -, hlen, -, -⟩⟩ :=
      Source.read_of_steady hs (by decide : 0 < Header.size)
    · exact ⟨s', by simp only [receive, hread], hs'⟩
    · exact absurd hlen (Nat.not_le.mpr hpos)
  | message p rest =>
    rw [Packet.bytes, List.append_assoc] at hs
    obtain ⟨s₁, hreceive, hs₁⟩ := receive_of_header hs
    obtain ⟨s₂, hread, hs₂⟩ := Source.readExact_of_steady hs₁ p.header.payloadSize
    rw [p.payloadSize_header] at hread hs₂
    rw [if_neg (by rw [List.length_append]; omega), List.take_left' rfl] at hread
    rw [List.drop_left' rfl] at hs₂
    have hmake : Packet.make p.header.kind p.header.nonce p.payload = .ok p := dif_pos p.fits
    refine ⟨s₂, ?_, hs₂⟩
    simp only [hreceive, payload, p.isCorrupted_header, Bool.false_eq_true, if_false, p.payloadSize_header, hread,
      hmake]
    rfl
  | corrupted h rest impossible =>
    obtain ⟨s', hreceive, hs'⟩ := receive_of_header hs
    exact ⟨s', by simp only [hreceive, payload, impossible, if_true], hs'⟩
  | inHeader bs begun cut => exact receive_of_short hs begun cut
  | inPayload h rest sound cut =>
    obtain ⟨s₁, hreceive, hs₁⟩ := receive_of_header hs
    obtain ⟨s₂, hread, hs₂⟩ := Source.readExact_of_steady hs₁ h.payloadSize
    rw [if_pos cut] at hread
    rw [List.drop_of_length_le (Nat.le_of_lt cut)] at hs₂
    exact ⟨s₂, by simp only [hreceive, payload, sound, Bool.false_eq_true, if_false, hread], hs₂⟩

/-- Bytes that begin with a frame hold its message. -/
theorem eq_of_next_frame {f : Frame} {tail : Bytes} (hnext : Next (f.bytes ++ tail) outcome rest) :
    outcome = .ok (some f.toPacket) ∧ rest = tail := by
  have hlong : Header.size ≤ (f.bytes ++ tail).length := by
    rw [Frame.bytes, List.append_assoc, List.length_append, Header.length_bytes]
    exact Nat.le_add_right _ _
  generalize hbs : f.bytes ++ tail = bs at hnext hlong
  cases hnext with
  | nothing => exact absurd hlong (by decide)
  | message p rest =>
    obtain ⟨rfl, rfl⟩ := Frame.bytes_append_inj (g := p.frame) hbs
    exact ⟨rfl, rfl⟩
  | corrupted h rest impossible =>
    rw [Frame.bytes, List.append_assoc] at hbs
    obtain ⟨rfl, -⟩ := Header.bytes_append_inj hbs
    rw [f.sound] at impossible
    cases impossible
  | inHeader bs begun cut => exact absurd hlong (Nat.not_le.mpr cut)
  | inPayload h rest sound cut =>
    rw [Frame.bytes, List.append_assoc] at hbs
    obtain ⟨rfl, rfl⟩ := Header.bytes_append_inj hbs
    rw [List.length_append, f.whole] at cut
    omega

theorem eq_nil_of_next (hnext : Next bs (.ok none) rest) : bs = [] := by
  cases hnext
  rfl

theorem eq_append_of_next (hnext : Next bs (.ok (some p)) rest) : bs = p.bytes ++ rest := by
  cases hnext
  rfl

/-! ## Receiving until the end -/

/-- Receiving again and again until there is nothing more or a failure. -/
inductive Receives : Source → List Packet → Outcome Unit → Prop where
  | message {s s' : Source} {p : Packet} {ps : List Packet} {last : Outcome Unit}
      (first : receive s = (.ok (some p), s')) (others : Receives s' ps last) : Receives s (p :: ps) last
  | nothing {s s' : Source} (h : receive s = (.ok none, s')) : Receives s [] (.ok ())
  | failure {s s' : Source} {e : Error} (h : receive s = (.error e, s')) : Receives s [] (.error e)

/-- How receiving ends on what is left where no whole message comes next: it is nothing, a header that announces
an impossible size, or the beginning of a message. -/
def lastOutcome (rest : Bytes) : Outcome Unit :=
  if rest = [] then .ok ()
  else if 8 ≤ rest.length ∧ (leNat (rest.take 3) < 8 ∨ leNat (rest.take 3) = 0xffffff) then
    .error (.protocolViolation (.corrupted (rest.take 8)))
  else .error (.connectivity .endOfStream)

theorem receiveAll_eq (s : Source) :
    receiveAll s =
      match receive s with
      | (.ok (some p), s') => (p :: (receiveAll s').1, (receiveAll s').2)
      | (.ok none, _) => ([], .ok ())
      | (.error e, _) => ([], .error e) := by
  rw [receiveAll]
  split <;> rename_i h <;> simp only [h]

/-- Receiving ends on every stream, with the messages that `receiveAll` gives. -/
theorem receives_iff : Receives s ps last ↔ receiveAll s = (ps, last) := by
  constructor
  · intro hreceives
    induction hreceives with
    | message first others ih => rw [receiveAll_eq, first]; simp only [ih]
    | nothing h => rw [receiveAll_eq, h]
    | failure h => rw [receiveAll_eq, h]
  · intro hall
    fun_induction receiveAll s generalizing ps last with
    | case1 s p s' h more final hmore ih =>
      cases hall
      exact .message h (ih hmore)
    | case2 s s' h =>
      cases hall
      exact .nothing h
    | case3 s e s' h =>
      cases hall
      exact .failure h

theorem lastOutcome_of_next {e : Error} (hnext : Next bs (.error e) rest) : lastOutcome bs = .error e := by
  have hstated (h : Header) (tail : Bytes) : leNat ((h.bytes ++ tail).take 3) = h.stated := by
    rw [h.take_bytes, Header.stated]
  have hlong (h : Header) (tail : Bytes) : 8 ≤ (h.bytes ++ tail).length := by
    rw [List.length_append, h.length_bytes]
    exact Nat.le_add_right _ _
  have hsome (h : Header) (tail : Bytes) : h.bytes ++ tail ≠ [] := by
    rw [← List.length_pos_iff]
    exact Nat.lt_of_lt_of_le (by decide) (hlong h tail)
  cases hnext with
  | corrupted h rest impossible =>
    have hfront : (h.bytes ++ rest).take 8 = h.bytes := List.take_left' h.length_bytes
    have himpossible : leNat ((h.bytes ++ rest).take 3) < 8 ∨ leNat ((h.bytes ++ rest).take 3) = 0xffffff := by
      rw [hstated]
      exact Header.isCorrupted_iff.mp impossible
    rw [lastOutcome, if_neg (hsome h rest), if_pos ⟨hlong h rest, himpossible⟩, hfront]
  | inHeader _ begun cut =>
    have hshort : ¬ 8 ≤ bs.length := Nat.not_le.mpr cut
    rw [lastOutcome, if_neg begun, if_neg (fun h => hshort h.1)]
  | inPayload h tail sound cut =>
    have hpossible : ¬ (h.stated < Header.size ∨ h.stated = Header.maxTotal) := by
      rw [← Header.isCorrupted_iff, sound]
      exact Bool.false_ne_true
    rw [lastOutcome, if_neg (hsome h tail), if_neg]
    rw [hstated]
    exact fun hboth => hpossible hboth.2

/-- Off a steady stream come the messages with which its bytes begin, as many as there are. -/
theorem exists_receives (hs : s.Steady bs) :
    ∃ ps rest, Receives s ps (lastOutcome rest) ∧ bs = (ps.map Packet.bytes).flatten ++ rest ∧
      ∀ (frames : List Frame) (rest' : Bytes), bs = (frames.map Frame.bytes).flatten ++ rest' →
        frames.length ≤ ps.length := by
  induction hlength : bs.length using Nat.strongRecOn generalizing s bs with
  | ind n ih =>
  obtain ⟨outcome, tail, hnext⟩ := exists_next bs
  obtain ⟨s', hreceive, hs'⟩ := receive_of_next hnext hs
  have hnone (hstop : ∀ p, outcome ≠ .ok (some p)) (frames : List Frame) (rest' : Bytes)
      (heq : bs = (frames.map Frame.bytes).flatten ++ rest') : frames.length ≤ 0 := by
    cases frames with
    | nil => exact Nat.le_refl 0
    | cons f frames =>
      rw [heq, List.map_cons, List.flatten_cons, List.append_assoc] at hnext
      exact absurd (eq_of_next_frame hnext).1 (hstop _)
  rcases outcome with e | _ | p
  · have hlast := lastOutcome_of_next hnext
    exact ⟨[], bs, hlast ▸ .failure hreceive, rfl, hnone (fun p h => by cases h)⟩
  · obtain rfl := eq_nil_of_next hnext
    exact ⟨[], [], .nothing hreceive, rfl, hnone (fun p h => by cases h)⟩
  · obtain rfl := eq_append_of_next hnext
    have hshorter : tail.length < n := by
      rw [← hlength, List.length_append, p.length_bytes]
      have : 0 < Header.size := by decide
      omega
    obtain ⟨ps, rest, hothers, rfl, hmax⟩ := ih _ hshorter hs' rfl
    refine ⟨p :: ps, rest, .message hreceive hothers, by simp, fun frames rest' heq => ?_⟩
    cases frames with
    | nil => exact Nat.zero_le _
    | cons f frames =>
      rw [List.map_cons, List.flatten_cons, List.append_assoc] at heq
      obtain ⟨-, htail⟩ := Frame.bytes_append_inj (f := p.frame) heq
      exact Nat.succ_le_succ (hmax frames rest' htail)

/-- Messages that were sent one after the other are received as they are, and then nothing. -/
theorem receives_flatten (hs : s.Steady (ps.map Packet.bytes).flatten) : Receives s ps (.ok ()) := by
  induction ps generalizing s with
  | nil =>
    obtain ⟨s', hreceive, -⟩ := receive_of_next .nothing hs
    exact .nothing hreceive
  | cons p ps ih =>
    rw [List.map_cons, List.flatten_cons] at hs
    obtain ⟨s', hreceive, hs'⟩ := receive_of_next (.message p _) hs
    exact .message hreceive (ih hs')

/-- **Framing is exact.** Receiving ends on every stream. Off a steady stream, in whatever pieces it comes, it
gives the messages with which the bytes begin: each of them has a header that is not corrupted and as much
payload as this announces, and no division of the bytes has more of them. Then it finds nothing, a corrupted
header or the end of the stream inside a message, as the bytes behind the last message have it. What was sent
message by message is received as it was sent. -/
theorem receives_exact :
    (∀ s : Source, ∃ ps last, Receives s ps last ∧
      ∀ ps' last', Receives s ps' last' → ps' = ps ∧ last' = last) ∧
    (∀ (s : Source) (bs : Bytes), s.Steady bs → ∃ (ps : List Packet) (rest : Bytes),
      Receives s ps (lastOutcome rest) ∧ bs = (ps.map Packet.bytes).flatten ++ rest ∧
      (∀ p ∈ ps, p.header.isCorrupted = false ∧ p.header.payloadSize = p.payload.length) ∧
      ∀ (frames : List Frame) (rest' : Bytes), bs = (frames.map Frame.bytes).flatten ++ rest' →
        frames.length ≤ ps.length) ∧
    ∀ (s : Source) (ps : List Packet), s.Steady (ps.map Packet.bytes).flatten → Receives s ps (.ok ()) := by
  refine ⟨fun s => ?_, fun s bs hs => ?_, fun s ps hs => receives_flatten hs⟩
  · refine ⟨(receiveAll s).1, (receiveAll s).2, receives_iff.mpr rfl, fun ps' last' hreceives => ?_⟩
    rw [receives_iff.mp hreceives]
    exact ⟨rfl, rfl⟩
  · obtain ⟨ps, rest, hreceives, hbs, hmax⟩ := exists_receives hs
    exact ⟨ps, rest, hreceives, hbs, fun p _ => ⟨p.isCorrupted_header, p.payloadSize_header⟩, hmax⟩

/-! ## Two streams in pieces -/

theorem fits_endOfAnswer : ([] : Bytes).length + Header.size < Header.maxTotal := by decide

/-- The shortest message: the end of an answer. -/
def endOfAnswer : Packet := ⟨35, 1, [], fits_endOfAnswer⟩

/-- A message that comes in three pieces and the first byte of another, behind which the stream ends; and two
messages whose first reads give a single byte. -/
theorem receives_exact_pieces :
    Receives ⟨endOfAnswer.bytes ++ [9], [.deliver 3, .deliver 2], .closed⟩ [endOfAnswer]
        (.error (.connectivity .endOfStream)) ∧
      Receives ⟨endOfAnswer.bytes ++ endOfAnswer.bytes, [.deliver 1, .deliver 7, .deliver 1], .closed⟩
        [endOfAnswer, endOfAnswer] (.ok ()) := by
  obtain ⟨-, hsteady, hflatten⟩ := receives_exact
  have hcut : Source.Steady ⟨endOfAnswer.bytes ++ [9], [.deliver 3, .deliver 2], .closed⟩
      (endOfAnswer.bytes ++ [9]) := ⟨⟨rfl, by simp [ReadStep.Gentle], rfl⟩, by simp⟩
  have htwo : Source.Steady ⟨endOfAnswer.bytes ++ endOfAnswer.bytes, [.deliver 1, .deliver 7, .deliver 1], .closed⟩
      ([endOfAnswer, endOfAnswer].map Packet.bytes).flatten := ⟨⟨by simp, by simp [ReadStep.Gentle], rfl⟩, by simp⟩
  refine ⟨?_, hflatten _ _ htwo⟩
  obtain ⟨ps, rest, hreceives, hbs, -, hmax⟩ := hsteady _ _ hcut
  -- The bytes begin with the message, so it is received; one byte is too few for another.
  cases ps with
  | nil => exact absurd (hmax [endOfAnswer.frame] [9] rfl) (by decide)
  | cons p ps =>
    rw [List.map_cons, List.flatten_cons, List.append_assoc] at hbs
    obtain ⟨hp, htail⟩ := Frame.bytes_append_inj (f := endOfAnswer.frame) (g := p.frame) hbs
    obtain rfl : endOfAnswer = p := congrArg Frame.toPacket hp
    cases ps with
    | nil =>
      obtain rfl : [9] = rest := htail
      exact hreceives
    | cons q ps =>
      have hlength := congrArg List.length htail
      rw [List.map_cons, List.flatten_cons, List.length_append, List.length_append, q.length_bytes, Header.size,
        List.length_singleton] at hlength
      omega

end LightClient.Framing
