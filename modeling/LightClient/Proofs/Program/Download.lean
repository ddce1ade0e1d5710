import LightClient.Proofs.Exchange.First
import LightClient.Proofs.Locate.Evidence
import LightClient.Proofs.Locate.NotFound
import LightClient.Proofs.Program.Script
import LightClient.Proofs.Transaction.Taken
import LightClient.Program.Command
/-!
# Downloads

Two commands write what a node gives to a file: a tick's header with its transactions, and a computor list. Everything
has arrived, and the list's signature has been checked, before the file is touched (`TickDownload`, `ListDownload`).
Then the file is written once (`WritesOnce`); in every other case the disk is left alone (`LeftAlone`).
-/
namespace LightClient

variable {σ : Type}

/-- A run that has written nothing. -/
structure LeftAlone (disk : Disk) (w : World σ) : Prop where
  disk_eq : w.disk = disk
  unwritten : ∀ name content, .wrote name content ∉ w.deeds

/-- A run that has written one file after some other deeds, and has then only printed. If the file could not be
written, the run has failed, and the disk is what the failed write has left. -/
structure WritesOnce (disk : Disk) (before : List Deed) (name : String) (content : Bytes)
    (r : Except Failure Unit × World σ) : Prop where
  deeds : ∃ lines : List String, r.2.deeds = before ++ .wrote name content :: lines.map .printed
  saved : ∀ disk', disk.write name content = (.ok (), disk') →
    r.1 = .ok () ∧ r.2.disk = disk' ∧ r.2.disk.read name = .ok content
  failed : ∀ fault disk', disk.write name content = (.error fault, disk') →
    r.1 = .error (.ofError (.io fault)) ∧ r.2.disk = disk' ∧
      (r.2.disk = disk ∨ ∃ n, r.2.disk.read name = .ok (content.take n))

variable [Transport σ]

theorem Script.writesOnce_save (name : String) (content : Bytes) (line : String) (w : World σ) :
    WritesOnce w.disk w.deeds name content ((save name content >>= fun _ => say line).run w) := by
  have hsave := run_save name content w
  cases hwrite : w.disk.write name content with | mk result disk
  have hdisk := World.disk_save hwrite
  rw [hwrite] at hsave
  cases result with
  | ok =>
    rw [run_bind_of_ok hsave, run_say]
    exact {
      deeds := ⟨[line], by simp⟩
      saved := by
        rintro disk' h
        obtain ⟨-, rfl⟩ := Prod.mk.inj (hwrite.symm.trans h)
        exact ⟨rfl, hdisk, (congrArg (·.read name) hdisk).trans (Disk.read_of_write hwrite)⟩
      failed := fun fault disk' h => nomatch hwrite.symm.trans h }
  | error fault =>
    rw [run_bind_of_error hsave]
    exact {
      deeds := ⟨[], by simp⟩
      saved := fun disk' h => nomatch hwrite.symm.trans h
      failed := by
        rintro fault' disk' h
        obtain ⟨hfault, rfl⟩ := Prod.mk.inj (hwrite.symm.trans h)
        cases hfault
        refine ⟨rfl, hdisk, ?_⟩
        rw [hdisk]
        exact (Disk.write_eq_error hwrite).imp And.right fun ⟨_, n, _, _, hread⟩ => ⟨n, hread⟩ }

namespace Command

/-- What comes of a command: its result, and the world that it leaves. -/
def outcome (settings : Settings) (disk : Disk) (node : Except Fault (Session σ)) (command : Command) :
    Except Failure Unit × World σ :=
  (command.script settings).run (World.start disk node)

variable {w : World σ} {s : Session σ} {tick : UInt32}

/-! ## A tick's header and transactions -/

/-- A node gives the published header of a tick, and then transactions without failing. -/
structure TickDownload (tick : UInt32) (s : Session σ) where
  header : TickHeader
  afterHeader : Session σ
  transactions : List Transaction
  afterTransactions : Session σ
  run_header : (TickHeader.fetch tick).run s = (.ok (some header), afterHeader)
  run_transactions : (Transaction.fetch tick header.body.transactionCount).run afterHeader =
    (.ok transactions, afterTransactions)

/-- The file is touched after the node has been heard, and holds then what the node has given. -/
theorem writesOnce_fetchTickData (tick : UInt32) (out : String) (hnode : w.node = .ok s) (d : TickDownload tick s) :
    WritesOnce w.disk (w.deeds ++ [.connected, .conversed, .conversed]) out (Archive.toBytes d.header d.transactions)
      ((fetchTickData tick out).run w) := by
  have hconnect := Script.run_reachNode w
  rw [hnode] at hconnect
  have hheader := Script.run_hold (w := w.record .connected) hnode d.run_header
  have htransactions := Script.run_hold (World.node_converse (w.record .connected) d.afterHeader) d.run_transactions
  rw [fetchTickData, Script.run_bind_of_ok hconnect, Script.run_bind_of_ok hheader]
  simp only
  rw [Script.run_bind_of_ok htransactions]
  simpa using Script.writesOnce_save out (Archive.toBytes d.header d.transactions) _
    (((w.record .connected).converse d.afterHeader).converse d.afterTransactions)

theorem leftAlone_fetchTickData {disk : Disk} {node : Except Fault (Session σ)} (out : String)
    (h : ∀ s, node = .ok s → IsEmpty (TickDownload tick s)) :
    LeftAlone disk ((fetchTickData tick out).run (World.start disk node)).2 := by
  -- The file comes last, so a run without a download ends at one of the three steps before it.
  have hconnect := Script.run_reachNode (World.start disk node)
  cases node with
  | error fault =>
    rw [fetchTickData, Script.run_bind_of_error hconnect]
    exact ⟨rfl, by simp [World.start]⟩
  | ok s =>
    rw [fetchTickData, Script.run_bind_of_ok hconnect]
    have hheld {s' : Session σ} {outcome : Outcome (Option TickHeader)}
        (hheader : (TickHeader.fetch tick).run s = (outcome, s')) :=
      Script.run_hold (w := (World.start disk (.ok s)).record .connected) rfl hheader
    cases hheader : (TickHeader.fetch tick).run s with | mk found t
    cases found with
    | error e =>
      rw [Script.run_bind_of_error (hheld hheader)]
      exact ⟨rfl, by simp [World.start]⟩
    | ok found =>
      rw [Script.run_bind_of_ok (hheld hheader)]
      cases found with
      | none => exact ⟨rfl, by simp [World.start, Script.run_say]⟩
      | some header =>
        simp only
        cases htransactions : (Transaction.fetch tick header.body.transactionCount).run t with | mk outcome u
        have hheld := Script.run_hold (w := ((World.start disk (.ok s)).record .connected).converse t) rfl htransactions
        cases outcome with
        | error e =>
          rw [Script.run_bind_of_error hheld]
          exact ⟨rfl, by simp [World.start]⟩
        | ok transactions => exact ((h s rfl).false ⟨header, t, transactions, u, hheader, htransactions⟩).elim

namespace TickDownload

variable {s : Session Peer} (d : TickDownload tick s)

/-- The header is the first one in the answer, and its tick was produced. -/
theorem first_header :
    Packet.first .broadcastTickHeader TickHeader.ofBytes s.answer = .ok (some d.header) ∧ d.header.body.epoch ≠ 0 := by
  have hrun := d.run_header
  rw [Location.run_fetchHeader] at hrun
  rcases hheard : s.run (TickHeader.exchange tick) with ⟨e | heard, t⟩ <;>
    simp only [hheard, reduceCtorEq, Prod.mk.injEq, Except.ok.injEq, false_and] at hrun
  obtain ⟨rfl, hpublished⟩ := Option.filter_eq_some_iff.mp hrun.1
  exact ⟨(TickHeader.takesFirst_exchange tick).first_of_run rfl hheard, by simpa [TickData.isEmpty] using hpublished⟩

/-- The transactions are what the next answer begins with, in order. -/
theorem decoded : Transaction.Decoded
    (Packet.leading .broadcastTransaction d.header.body.transactionCount d.afterHeader.answer) d.transactions :=
  Transaction.decoded_of_run_fetch d.run_transactions

theorem length_transactions_le : d.transactions.length ≤ d.header.body.transactionCount := by
  rw [← d.decoded.length_eq]
  exact List.length_take_le ..

end TickDownload

/-! ## A computor list -/

/-- A node gives a computor list whose signature holds under the trust anchor. -/
structure ListDownload (settings : Settings) (s : Session σ) where
  anchor : PublicKey
  set : ComputorSet
  after : Session σ
  anchor_eq : settings.anchor = some anchor
  run_list : s.run (ComputorSet.exchange anchor) = (.ok (some ⟨set, .verified⟩), after)

variable {settings : Settings}

/-- The list is what the first message of its kind holds, and the anchor's signature on it holds. -/
theorem ListDownload.exists_message {s : Session Peer} (d : ListDownload settings s) :
    ∃ p, s.answer.find? (·.is .broadcastComputors) = some p ∧ ComputorSet.ofBytes p.payload = .ok d.set ∧
      d.set.verify d.anchor = true := by
  have hfirst := (ComputorSet.takesFirst_exchange d.anchor).first_of_run rfl d.run_list
  rw [Packet.first] at hfirst
  cases hfind : s.answer.find? (·.is .broadcastComputors) with
  | none => rw [hfind] at hfirst; cases hfirst
  | some p =>
    simp only [hfind, ComputorSet.load] at hfirst
    cases hparse : ComputorSet.ofBytes p.payload with
    | error flaw => rw [hparse] at hfirst; cases hfirst
    | ok set =>
      rw [hparse] at hfirst
      obtain ⟨rfl, hverified⟩ := Checked.mk.inj (Option.some.inj (Except.ok.inj hfirst))
      exact ⟨p, rfl, hparse, Integrity.ofBool_eq_verified_iff.mp hverified⟩

theorem run_trustAnchor {anchor : PublicKey} (h : settings.anchor = some anchor) (w : World σ) :
    (trustAnchor settings).run w = (.ok anchor, w) := by
  rw [trustAnchor, h, Script.run_ofOption_some]

theorem run_trustAnchor_none (h : settings.anchor = none) (w : World σ) :
    (trustAnchor settings).run w =
      (.error (.ofMessage "no trust anchor configured, pass --arbitrator <IDENTITY>"), w) := by
  rw [trustAnchor, h, Script.run_ofOption_none]

/-- The file is touched after the list has been heard and checked, and holds then this list. -/
theorem writesOnce_fetchComputorList (out : String) (hnode : w.node = .ok s) (d : ListDownload settings s) :
    WritesOnce w.disk (w.deeds ++ [.connected, .conversed]) out d.set.toBytes
      ((fetchComputorList settings out).run w) := by
  have hconnect := Script.run_reachNode w
  rw [hnode] at hconnect
  have hlist := Script.run_hold (w := w.record .connected) hnode ((Dialogue.run_once _ s).trans d.run_list)
  have hverified : (⟨d.set, .verified⟩ : Checked ComputorSet).isVerified = true := rfl
  rw [fetchComputorList, Script.run_bind_of_ok (run_trustAnchor d.anchor_eq w), Script.run_bind_of_ok hconnect,
    Script.run_bind_of_ok hlist, Script.run_bind_of_ok (Script.run_ofOption_some ..)]
  simp only [hverified, if_true]
  simpa using Script.writesOnce_save out d.set.toBytes _ ((w.record .connected).converse d.after)

/-- Otherwise the command fails, without a word and without touching the disk. -/
theorem leftAlone_fetchComputorList {disk : Disk} {node : Except Fault (Session σ)} (out : String)
    (h : ∀ s, node = .ok s → IsEmpty (ListDownload settings s)) :
    (∃ e, ((fetchComputorList settings out).run (World.start disk node)).1 = .error e) ∧
      ((fetchComputorList settings out).run (World.start disk node)).2.printed = [] ∧
      LeftAlone disk ((fetchComputorList settings out).run (World.start disk node)).2 := by
  -- Without a trust anchor the node is not even connected to.
  cases hanchor : settings.anchor with
  | none =>
    rw [fetchComputorList, Script.run_bind_of_error (run_trustAnchor_none hanchor _)]
    exact ⟨⟨_, rfl⟩, rfl, rfl, by simp [World.start]⟩
  | some anchor =>
    have hconnect := Script.run_reachNode (World.start disk node)
    rw [fetchComputorList, Script.run_bind_of_ok (run_trustAnchor hanchor _)]
    cases node with
    | error fault =>
      rw [Script.run_bind_of_error hconnect]
      exact ⟨⟨_, rfl⟩, rfl, rfl, by simp [World.start]⟩
    | ok s =>
      rw [Script.run_bind_of_ok hconnect]
      cases hlist : s.run (ComputorSet.exchange anchor) with | mk outcome t
      have hheld := Script.run_hold (w := (World.start disk (.ok s)).record .connected) rfl
        ((Dialogue.run_once _ s).trans hlist)
      cases outcome with
      | error e =>
        rw [Script.run_bind_of_error hheld]
        exact ⟨⟨_, rfl⟩, rfl, rfl, by simp [World.start]⟩
      | ok answer =>
        rw [Script.run_bind_of_ok hheld]
        cases answer with
        | none =>
          rw [Script.run_bind_of_error (Script.run_ofOption_none ..)]
          exact ⟨⟨_, rfl⟩, rfl, rfl, by simp [World.start]⟩
        | some computors =>
          rw [Script.run_bind_of_ok (Script.run_ofOption_some ..)]
          obtain ⟨set, _ | _⟩ := computors
          · exact ((h s rfl).false ⟨anchor, set, t, hanchor, hlist⟩).elim
          · have hunverified : (⟨set, .unverified⟩ : Checked ComputorSet).isVerified = false := rfl
            simp only [hunverified, Bool.false_eq_true, if_false, Script.run_fail]
            exact ⟨⟨_, rfl⟩, rfl, rfl, by simp [World.start]⟩

/-! ## Files -/

/-- **A failed download leaves the file alone.** For every node, the two commands write their file only after what goes
into it has arrived and been checked, and then exactly this. -/
theorem download_before_write (settings : Settings) (disk : Disk) (node : Except Fault (Session Peer)) (out : String) :
    (∀ tick,
      ((∀ s, node = .ok s → IsEmpty (TickDownload tick s)) →
        LeftAlone disk ((getTickData tick out).outcome settings disk node).2) ∧
      ∀ s, node = .ok s → ∀ d : TickDownload tick s,
        WritesOnce disk [.connected, .conversed, .conversed] out
            (d.header.toBytes ++ d.transactions.flatMap Transaction.toBytes)
            ((getTickData tick out).outcome settings disk node) ∧
          Packet.first .broadcastTickHeader TickHeader.ofBytes s.answer = .ok (some d.header) ∧
          d.header.body.epoch ≠ 0 ∧
          Transaction.Decoded (Packet.leading .broadcastTransaction d.header.body.transactionCount d.afterHeader.answer)
            d.transactions ∧
          d.transactions.length ≤ d.header.body.transactionCount) ∧
    ((∀ s, node = .ok s → IsEmpty (ListDownload settings s)) →
      LeftAlone disk ((getComputorList out).outcome settings disk node).2) ∧
    ∀ s, node = .ok s → ∀ d : ListDownload settings s,
      WritesOnce disk [.connected, .conversed] out d.set.toBytes
          ((getComputorList out).outcome settings disk node) ∧
        d.set.verify d.anchor = true := by
  refine ⟨fun tick => ⟨fun hnone => leftAlone_fetchTickData out hnone, fun s hnode d => ?_⟩,
    fun hnone => (leftAlone_fetchComputorList out hnone).2.2, fun s hnode d => ?_⟩
  · have hbytes : Archive.toBytes d.header d.transactions =
        d.header.toBytes ++ d.transactions.flatMap Transaction.toBytes := by
      rw [Archive.toBytes, Archive.pieces, List.flatten_cons, List.flatMap_def]
    obtain ⟨hfirst, hepoch⟩ := d.first_header
    exact ⟨hbytes ▸ writesOnce_fetchTickData (w := World.start disk node) tick out hnode d, hfirst, hepoch, d.decoded,
      d.length_transactions_le⟩
  · obtain ⟨p, -, -, hverified⟩ := d.exists_message
    exact ⟨writesOnce_fetchComputorList (w := World.start disk node) out hnode d, hverified⟩

/-- A node that gives a header and the transaction that it lists. -/
def servingNode : Peer :=
  .ofScript [] [.holding .broadcastTickHeader (Nonce.ofNat 0).val [(Location.headerOf 5).toBytes],
    .holding .broadcastTransaction (Nonce.ofNat 1).val ([Transaction.blank 1 []].map Transaction.toBytes)]

theorem exists_download_servingNode :
    ∃ d : TickDownload 5 (Session.start servingNode Nonce.ofNat),
      d.header = Location.headerOf 5 ∧ d.transactions = [.blank 1 []] := by
  obtain ⟨arrived₁, h₁⟩ := Session.run_of_holding (TickHeader.takesFirst_exchange 5).patient (by decide)
    (Location.fits_request_header 5)
    ((TickHeader.takesFirst_exchange 5).hearAll_holding (Nonce.ofNat 0).val (Location.headerOf 5).fits_toBytes
      (Location.headerOf 5).ofBytes_toBytes) servingNode.responses.tail []
  have hinput : ∀ t ∈ [Transaction.blank 1 []], t.body.input.length ≤ Transfer.maxInput := by decide
  obtain ⟨arrived₂, h₂⟩ := Session.run_of_holding
    (Transaction.patient_exchange 5 (Location.headerOf 5).body.transactionCount) (by decide)
    (Location.fits_request_transactions 5 _)
    (Transaction.hearAll_exchange 5 (Location.headerOf 5).body.transactionCount (Nonce.ofNat 1).val hinput []) []
    arrived₁
  have hcount := Location.transactionCount_headerOf 5
  have htake : [] ++ List.take ((Location.headerOf 5).body.transactionCount - ([] : List Transaction).length)
      [Transaction.blank 1 []] = [.blank 1 []] := by
    rw [hcount, List.length_nil, List.nil_append, List.take_succ_cons, List.take_zero]
  rw [htake] at h₂
  have hfetch := Transaction.run_fetch_of_run (by simp [hcount]) h₂
  exact ⟨⟨_, _, _, _, Location.run_fetchHeader_of_run h₁ rfl, hfetch⟩, rfl, rfl⟩

/-- What this node gives is written; without a node nothing is. -/
theorem download_before_write_serving :
    WritesOnce .empty [.connected, .conversed, .conversed] "tick"
        ((Location.headerOf 5).toBytes ++ [Transaction.blank 1 []].flatMap Transaction.toBytes)
        ((getTickData 5 "tick").outcome (.ofNode "node") .empty (.ok (Session.start servingNode Nonce.ofNat))) ∧
      LeftAlone .empty
        ((getTickData 5 "tick").outcome (.ofNode "node") .empty (.error .refused : Except Fault (Session Peer))).2 := by
  obtain ⟨d, hheader, htransactions⟩ := exists_download_servingNode
  obtain ⟨htick, -⟩ :=
    download_before_write (.ofNode "node") .empty (.ok (Session.start servingNode Nonce.ofNat)) "tick"
  obtain ⟨hrefused, -⟩ := download_before_write (.ofNode "node") .empty (.error .refused) "tick"
  rw [← hheader, ← htransactions]
  exact ⟨((htick 5).2 _ rfl d).1, (hrefused 5).1 fun s hnode => nomatch hnode⟩

end Command

end LightClient
