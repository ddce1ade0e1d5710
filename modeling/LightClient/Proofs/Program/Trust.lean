import LightClient.Proofs.Hash.Naturals
import LightClient.Proofs.Locate.InArchive
import LightClient.Proofs.Program.Download
import LightClient.Proofs.Vote.Split
/-!
# No command acts on a list that is not trusted

A computor list is trusted if its signature holds under the trust anchor (`Trusted`). The commands that are given a
list in a file read it first; unless it is trusted they end there with an error, before anything is printed, asked
or read (`Refused`), and otherwise go on with this list. A list that is fetched is written only if it is trusted, and
what is written can be read back as a trusted list (`trusted_before_use`).
-/
namespace LightClient

/-! ## The line about an unchecked header -/

namespace TickHeader

theorem append_ne_uncheckedLine (start : String) (h : ¬ start.toList <+: uncheckedLine.toList) (rest : String) :
    start ++ rest ≠ uncheckedLine := by
  intro heq
  rw [← heq, String.toList_append] at h
  exact h (List.prefix_append ..)

/-- A line that begins with `Tick` and a number is about something else. -/
theorem tick_ne_uncheckedLine (n : Nat) (rest : String) : "Tick " ++ (toString n ++ rest) ≠ uncheckedLine := by
  intro heq
  have hchars := congrArg String.toList heq
  obtain ⟨c, cs, hdigits⟩ := List.exists_cons_of_ne_nil (Nat.toDigits_ne_nil (n := n) (b := 10))
  have hdigit : c.isDigit = true :=
    Nat.isDigit_of_mem_toDigits (by decide) (by decide) (hdigits ▸ List.mem_cons_self)
  simp [uncheckedLine, hdigits] at hchars
  obtain ⟨rfl, -⟩ := hchars
  exact absurd hdigit (by decide)

theorem signatureLine_eq_uncheckedLine_iff {signature : Option Integrity} :
    signatureLine signature = uncheckedLine ↔ signature = none := by
  rcases signature with _ | _ | _ <;> decide

end TickHeader

open TickHeader in
theorem Receipt.uncheckedLine_mem_lines_iff {r : Receipt} : uncheckedLine ∈ r.lines ↔ r.headerSignature = none := by
  constructor
  · intro h
    simp only [lines, String.append_assoc, List.mem_cons, List.not_mem_nil, or_false] at h
    rcases h with h | h | h | h | h | h | h | h
    · exact absurd h.symm (append_ne_uncheckedLine "Found " (by decide) _)
    · exact absurd h.symm (append_ne_uncheckedLine "From: " (by decide) _)
    · exact absurd h.symm (append_ne_uncheckedLine "To: " (by decide) _)
    · exact absurd h.symm (append_ne_uncheckedLine "Amount: " (by decide) _)
    · exact absurd h.symm (append_ne_uncheckedLine "Input type: " (by decide) _)
    · exact absurd h.symm (append_ne_uncheckedLine "Signature: " (by decide) _)
    · exact signatureLine_eq_uncheckedLine_iff.mp h.symm
    · exact absurd h.symm (append_ne_uncheckedLine "Money flew: " (by decide) _)
  · intro h
    have hline := signatureLine_eq_uncheckedLine_iff.mpr h
    simp [lines, hline]

open TickHeader in
theorem Location.uncheckedLine_mem_lines_iff {location : Location} {wanted : String} :
    uncheckedLine ∈ location.lines wanted ↔ ∃ r, location = .found r ∧ r.headerSignature = none := by
  cases location with
  | found r => simp [lines, Receipt.uncheckedLine_mem_lines_iff]
  | notYetFinalized tick current =>
    simp only [lines, String.append_assoc, List.mem_singleton, reduceCtorEq, false_and, exists_false, iff_false]
    exact fun heq => tick_ne_uncheckedLine _ _ heq.symm
  | notFound =>
    simp only [lines, String.append_assoc, List.mem_singleton, reduceCtorEq, false_and, exists_false, iff_false]
    exact fun heq => append_ne_uncheckedLine "Transaction " (by decide) _ heq.symm

namespace Command

variable {σ : Type} [Transport σ] {settings : Settings} {file : String} {set : ComputorSet} {w : World σ}

/-! ## The list in a file -/

/-- A file holds this computor list, and the trust anchor's signature on it holds. -/
def Trusted (settings : Settings) (disk : Disk) (file : String) (set : ComputorSet) : Prop :=
  ∃ anchor bs, settings.anchor = some anchor ∧ disk.read file = .ok bs ∧ ComputorSet.ofBytes bs = .ok set ∧
    set.verify anchor = true

theorem run_loadComputors {anchor : PublicKey} (h : settings.anchor = some anchor) (file : String) (w : World σ) :
    (loadComputors settings file).run w =
      ((ComputorSet.ofContent anchor (w.disk.read file)).mapError fun e =>
        (Failure.ofError e).under s!"failed to load computor list {file}", w.record (.read file)) := by
  rw [loadComputors, Script.run_bind_of_ok (run_trustAnchor h w), Script.run_bind_of_ok (Script.run_content ..),
    Script.run_ofOutcomeUnder]

theorem load_of_ofBytes {bs : Bytes} (h : ComputorSet.ofBytes bs = .ok set) (anchor : PublicKey) :
    ComputorSet.load anchor bs = .ok ⟨set, .ofBool (set.verify anchor)⟩ := by
  rw [ComputorSet.load, h]
  rfl

theorem ofContent_of_ofBytes {bs : Bytes} (h : ComputorSet.ofBytes bs = .ok set) (anchor : PublicKey) :
    ComputorSet.ofContent anchor (.ok bs) = .ok ⟨set, .ofBool (set.verify anchor)⟩ := by
  rw [ComputorSet.ofContent, load_of_ofBytes h, Outcome.ofRecord_ok]

/-- A list that is trusted is loaded with the mark that its signature holds. -/
theorem run_loadComputors_of_trusted (h : Trusted settings w.disk file set) :
    (loadComputors settings file).run w = (.ok ⟨set, .verified⟩, w.record (.read file)) := by
  obtain ⟨anchor, bs, hanchor, hread, hparse, hverify⟩ := h
  rw [run_loadComputors hanchor, hread, ofContent_of_ofBytes hparse, hverify]
  rfl

/-- Otherwise loading fails, or gives a list with the mark that its signature does not hold. -/
theorem run_loadComputors_of_untrusted (h : ∀ set, ¬ Trusted settings w.disk file set) :
    (∃ e, (loadComputors settings file).run w = (.error e, w) ∨
        (loadComputors settings file).run w = (.error e, w.record (.read file))) ∨
      ∃ set, (loadComputors settings file).run w = (.ok ⟨set, .unverified⟩, w.record (.read file)) := by
  cases hanchor : settings.anchor with
  | none => exact .inl ⟨_, .inl (Script.run_bind_of_error (run_trustAnchor_none hanchor w) _)⟩
  | some anchor =>
    rw [run_loadComputors hanchor]
    cases hread : w.disk.read file with
    | error fault => exact .inl ⟨_, .inr rfl⟩
    | ok bs =>
      cases hparse : ComputorSet.ofBytes bs with
      | error flaw =>
        rw [show ComputorSet.ofContent anchor (.ok bs) = .error (.malformed flaw) by
          rw [ComputorSet.ofContent, ComputorSet.load, hparse]; rfl]
        exact .inl ⟨_, .inr rfl⟩
      | ok set =>
        cases hverify : set.verify anchor with
        | true => exact absurd ⟨anchor, bs, hanchor, hread, hparse, hverify⟩ (h set)
        | false =>
          refine .inr ⟨set, ?_⟩
          rw [ofContent_of_ofBytes hparse, hverify]
          rfl

/-! ## The commands that are given a list -/

/-- A run that ended with an error and did no more than try to read the file with the list. -/
structure Refused (disk : Disk) (node : Except Fault (Session σ)) (file : String)
    (r : Except Failure Unit × World σ) : Prop where
  error : ∃ e, r.1 = .error e
  disk_eq : r.2.disk = disk
  node_eq : r.2.node = node
  deeds : r.2.deeds = [] ∨ r.2.deeds = [.read file]

/-- What is done with a list to check votes against: the node is asked for the votes. -/
def countVotes (set : ComputorSet) (tick : UInt32) : Script Unit := do
  Script.reachNode
  let report ← Script.hold (QuorumReport.collect set tick)
  Script.sayAll report.lines

/-- What is done with a list, if there is one, to check the header of a tick at a node against. -/
def lookOnTick (computors : Option ComputorSet) (tick : UInt32) (wanted : String) (wait : WaitPolicy) :
    Script Unit := do
  Script.reachNode
  let waited ← Script.hold (TickInfo.waitFor wait.allows wait.interval tick)
  if waited.info.isNone then
    Script.say s!"Tick {tick.toNat} is not finalized yet, try again later"
  else
    let location ← Script.hold (Location.locate computors wanted tick)
    Script.sayAll (location.lines wanted)

/-- What is done with a list, if there is one, to check the header of an archive against. -/
def lookOnFile (computors : Option ComputorSet) (wanted : String) (file : String) : Script Unit := do
  let archive ← loadArchive file
  Script.sayAll ((Location.locateInArchive computors wanted archive).lines wanted)

variable {disk : Disk} {node : Except Fault (Session σ)}

theorem run_optionalComputors_of_trusted (h : Trusted settings w.disk file set) :
    (optionalComputors settings (some file)).run w = (.ok (some set), w.record (.read file)) :=
  Script.run_bind_of_ok (run_loadComputors_of_trusted h) _

/-- A command that first reads the list for the check of a header goes on with a list that is trusted. -/
theorem run_of_trusted (h : Trusted settings disk file set) (next : Option ComputorSet → Script Unit) :
    (optionalComputors settings (some file) >>= next).run (World.start disk node) =
      (next (some set)).run ((World.start disk node).record (.read file)) :=
  Script.run_bind_of_ok (run_optionalComputors_of_trusted (w := World.start disk node) h) next

theorem run_optionalComputors_of_untrusted (h : ∀ set, ¬ Trusted settings w.disk file set) :
    ∃ e, (optionalComputors settings (some file)).run w = (.error e, w) ∨
      (optionalComputors settings (some file)).run w = (.error e, w.record (.read file)) := by
  rcases run_loadComputors_of_untrusted h with ⟨e, hrun | hrun⟩ | ⟨set, hrun⟩
  · exact ⟨e, .inl (Script.run_bind_of_error hrun _)⟩
  · exact ⟨e, .inr (Script.run_bind_of_error hrun _)⟩
  · exact ⟨_, .inr (Script.run_bind_of_ok hrun _)⟩

/-- A command that first reads the list for the check of a header ends there unless the list is trusted. -/
theorem refused_of_untrusted (h : ∀ set, ¬ Trusted settings disk file set)
    (next : Option ComputorSet → Script Unit) :
    Refused disk node file ((optionalComputors settings (some file) >>= next).run (World.start disk node)) := by
  obtain ⟨e, hrun | hrun⟩ := run_optionalComputors_of_untrusted (w := World.start disk node) h
  · rw [Script.run_bind_of_error hrun]
    exact ⟨⟨e, rfl⟩, rfl, rfl, .inl rfl⟩
  · rw [Script.run_bind_of_error hrun]
    exact ⟨⟨e, rfl⟩, rfl, rfl, .inr rfl⟩

theorem refused_showQuorum (h : ∀ set, ¬ Trusted settings disk file set) (tick : UInt32) :
    Refused disk node file ((showQuorum settings file tick false).run (World.start disk node)) := by
  rcases run_loadComputors_of_untrusted (w := World.start disk node) h with ⟨e, hrun | hrun⟩ | ⟨set, hrun⟩
  · rw [showQuorum, Script.run_bind_of_error hrun]
    exact ⟨⟨e, rfl⟩, rfl, rfl, .inl rfl⟩
  · rw [showQuorum, Script.run_bind_of_error hrun]
    exact ⟨⟨e, rfl⟩, rfl, rfl, .inr rfl⟩
  · rw [showQuorum, Script.run_bind_of_ok hrun]
    exact ⟨⟨_, rfl⟩, rfl, rfl, .inr rfl⟩

theorem run_showQuorum_of_trusted (h : Trusted settings w.disk file set) (tick : UInt32) :
    (showQuorum settings file tick false).run w = (countVotes set tick).run (w.record (.read file)) := by
  rw [showQuorum, Script.run_bind_of_ok (run_loadComputors_of_trusted h)]
  rfl

/-! ## What is told of the header's signature -/

/-- The lines that tell what came of looking for a transaction, with a list or without one. -/
inductive Told (computors : Option ComputorSet) (wanted : String) : List String → Prop where
  /-- It came to an error. -/
  | nothing : Told computors wanted []
  /-- The tick has not passed. -/
  | early (tick : UInt32) : Told computors wanted [s!"Tick {tick.toNat} is not finalized yet, try again later"]
  | location (l : Location) (h : ∀ r, l = .found r → (r.headerSignature = none ↔ computors = none)) :
      Told computors wanted (l.lines wanted)

variable {computors : Option ComputorSet} {wanted : String}

/-- The header's signature is told to be unchecked exactly in a receipt for which there was no list. -/
theorem Told.uncheckedLine_mem_iff {lines : List String} (h : Told computors wanted lines) :
    TickHeader.uncheckedLine ∈ lines ↔ computors = none ∧ ∃ r : Receipt, lines = r.lines := by
  cases h with
  | nothing => simp [Receipt.lines]
  | early tick =>
    have hother := TickHeader.tick_ne_uncheckedLine tick.toNat " is not finalized yet, try again later"
    rw [← String.append_assoc] at hother
    simp only [List.mem_singleton, Receipt.lines, List.cons.injEq, List.nil_eq, reduceCtorEq, and_false, exists_false,
      iff_false]
    exact fun heq => hother heq.symm
  | location l h =>
    rw [Location.uncheckedLine_mem_lines_iff]
    constructor
    · rintro ⟨r, rfl, hnone⟩
      exact ⟨(h r rfl).mp hnone, r, rfl⟩
    · rintro ⟨hcomputors, r, hlines⟩
      cases l with
      | found r' => exact ⟨r', rfl, (h r' rfl).mpr hcomputors⟩
      | notYetFinalized tick current => simp [Location.lines, Receipt.lines] at hlines
      | notFound => simp [Location.lines, Receipt.lines] at hlines

theorem headerSignature_eq_none_iff_of_locate {tick : UInt32} {s s' : Session σ} {location : Location}
    (h : (Location.locate computors wanted tick).run s = (.ok location, s')) (r : Receipt) (hr : location = .found r) :
    r.headerSignature = none ↔ computors = none := by
  obtain ⟨trail⟩ := Location.exists_trail (hr ▸ congrArg Prod.fst h)
  rw [trail.receipt_eq]
  exact Option.map_eq_none_iff

theorem headerSignature_eq_none_iff_of_archive {archive : Archive} (r : Receipt)
    (h : Location.locateInArchive computors wanted archive = .found r) :
    r.headerSignature = none ↔ computors = none := by
  rw [Location.locateInArchive] at h
  split at h
  · cases h
    exact Option.map_eq_none_iff
  · cases h

theorem run_loadArchive (file : String) (w : World σ) :
    (loadArchive file).run w =
      ((Archive.ofContent (w.disk.read file)).mapError fun e =>
        (Failure.ofError e).under s!"failed to read {file}", w.record (.read file)) := by
  rw [loadArchive, Script.run_bind_of_ok (Script.run_content ..), Script.run_ofOutcomeUnder]

theorem told_lookOnFile (computors : Option ComputorSet) (wanted file : String) (w : World σ) :
    ∃ lines, Told computors wanted lines ∧
      ((lookOnFile computors wanted file).run w).2.printed = w.printed ++ lines := by
  have hload := run_loadArchive file w
  cases hcontent : Archive.ofContent (w.disk.read file) with
  | error e =>
    rw [hcontent] at hload
    rw [lookOnFile, Script.run_bind_of_error hload]
    exact ⟨[], .nothing, by simp [Deed.line?]⟩
  | ok archive =>
    rw [hcontent] at hload
    rw [lookOnFile, Script.run_bind_of_ok hload, Script.run_sayAll]
    exact ⟨_, .location (.locateInArchive computors wanted archive) headerSignature_eq_none_iff_of_archive,
      by simp [Deed.line?]⟩

/-- Without a list, what is found in an archive is shown. -/
theorem printed_of_found {file : String} {archive : Archive} {r : Receipt}
    (hread : Archive.ofContent (disk.read file) = .ok archive)
    (hfound : Location.locateInArchive none wanted archive = .found r) :
    ((checkTxOnFile wanted file none).outcome settings disk node).2.printed = r.lines := by
  have hload := run_loadArchive file (World.start disk node)
  have hcontent : Archive.ofContent ((World.start disk node).disk.read file) = .ok archive := hread
  rw [hcontent] at hload
  have hrun : (checkTxOnFile wanted file none).outcome settings disk node =
      (lookOnFile none wanted file).run (World.start disk node) := rfl
  rw [hrun, lookOnFile, Script.run_bind_of_ok hload, Script.run_sayAll, hfound]
  simp [Deed.line?, Location.lines]

theorem told_lookOnTick (computors : Option ComputorSet) (tick : UInt32) (wanted : String) (wait : WaitPolicy)
    (w : World σ) :
    ∃ lines, Told computors wanted lines ∧
      ((lookOnTick computors tick wanted wait).run w).2.printed = w.printed ++ lines := by
  have hconnect := Script.run_reachNode w
  cases hnode : w.node with
  | error fault =>
    rw [hnode] at hconnect
    rw [lookOnTick, Script.run_bind_of_error hconnect]
    exact ⟨[], .nothing, by simp [Deed.line?]⟩
  | ok s =>
    rw [hnode] at hconnect
    rw [lookOnTick, Script.run_bind_of_ok hconnect]
    cases hwaited : (TickInfo.waitFor wait.allows wait.interval tick).run s with | mk outcome t
    have hheld := Script.run_hold (w := w.record .connected) hnode hwaited
    cases outcome with
    | error e =>
      rw [Script.run_bind_of_error hheld]
      exact ⟨[], .nothing, by simp [Deed.line?]⟩
    | ok waited =>
      rw [Script.run_bind_of_ok hheld]
      split
      · exact ⟨_, .early tick, by simp [Script.run_say, Deed.line?]⟩
      · cases hlocate : (Location.locate computors wanted tick).run t with | mk outcome u
        have hheld := Script.run_hold (w := (w.record .connected).converse t) rfl hlocate
        cases outcome with
        | error e =>
          rw [Script.run_bind_of_error hheld]
          exact ⟨[], .nothing, by simp [Deed.line?]⟩
        | ok location =>
          rw [Script.run_bind_of_ok hheld, Script.run_sayAll]
          exact ⟨_, .location location (headerSignature_eq_none_iff_of_locate hlocate), by simp [Deed.line?]⟩

omit [Transport σ] in
theorem Refused.printed_eq {disk : Disk} {node : Except Fault (Session σ)} {r : Except Failure Unit × World σ}
    (h : Refused disk node file r) : r.2.printed = [] := by
  rcases h.deeds with hdeeds | hdeeds <;> rw [World.printed, hdeeds] <;> rfl

/-- A command that looks for a transaction tells in its receipts that the header is unchecked exactly if it was given no
list. -/
theorem uncheckedLine_mem_printed_iff {next : Option ComputorSet → Script Unit}
    (h : ∀ computors (w : World σ), ∃ lines, Told computors wanted lines ∧
      ((next computors).run w).2.printed = w.printed ++ lines)
    (settings : Settings) (disk : Disk) (node : Except Fault (Session σ)) (given : Option String) :
    TickHeader.uncheckedLine ∈ ((optionalComputors settings given >>= next).run (World.start disk node)).2.printed ↔
      given = none ∧ ∃ r : Receipt,
        ((optionalComputors settings given >>= next).run (World.start disk node)).2.printed = r.lines := by
  cases given with
  | none =>
    have hnone : (optionalComputors settings none).run (World.start disk node) =
        (.ok none, World.start disk node) := rfl
    obtain ⟨lines, htold, hprinted⟩ := h none (World.start disk node)
    rw [Script.run_bind_of_ok hnone, hprinted]
    simpa using htold.uncheckedLine_mem_iff
  | some file =>
    suffices hnot : TickHeader.uncheckedLine ∉
        ((optionalComputors settings (some file) >>= next).run (World.start disk node)).2.printed by simpa using hnot
    by_cases htrusted : ∃ set, Trusted settings disk file set
    · obtain ⟨set, htrusted⟩ := htrusted
      obtain ⟨lines, htold, hprinted⟩ := h (some set) ((World.start disk node).record (.read file))
      rw [run_of_trusted htrusted, hprinted]
      simpa [Deed.line?] using mt htold.uncheckedLine_mem_iff.mp (by simp)
    · have hrefused : Refused disk node file _ := refused_of_untrusted (not_exists.mp htrusted) next
      rw [hrefused.printed_eq]
      exact List.not_mem_nil

/-! ## A list that is fetched -/

/-- A node offers a list that is trusted: the first message of this kind in the answer holds it, and the trust anchor's
signature on it holds. -/
structure Offered (settings : Settings) (s : Session Peer) (anchor : PublicKey) (p : Packet) (set : ComputorSet) :
    Prop where
  anchor_eq : settings.anchor = some anchor
  first : s.answer.find? (·.is .broadcastComputors) = some p
  decoded : ComputorSet.ofBytes p.payload = .ok set
  verified : set.verify anchor = true

theorem ListDownload.exists_offered {s : Session Peer} (d : ListDownload settings s) :
    ∃ p, Offered settings s d.anchor p d.set := by
  obtain ⟨p, hfirst, hdecoded, hverified⟩ := d.exists_message
  exact ⟨p, d.anchor_eq, hfirst, hdecoded, hverified⟩

theorem Offered.toBytes_eq {s : Session Peer} {anchor : PublicKey} {p : Packet}
    (h : Offered settings s anchor p set) : set.toBytes = p.payload :=
  ((ComputorSet.layout.parse_eq_ok_iff _ _ _).mp h.decoded).symm

/-- The payload of the message, saved in a file, is loaded as this list with the mark that its signature holds. -/
theorem Offered.loadFile {s : Session Peer} {anchor : PublicKey} {p : Packet} {disk : Disk} {out : String}
    (h : Offered settings s anchor p set) (hread : disk.read out = .ok p.payload) :
    ComputorSet.loadFile disk out anchor = .ok ⟨set, .verified⟩ := by
  rw [ComputorSet.loadFile, hread, ofContent_of_ofBytes h.decoded, h.verified]
  rfl

/-- A file with the payload of the message is a trusted list. -/
theorem Offered.trusted {s : Session Peer} {anchor : PublicKey} {p : Packet} {disk : Disk} {out : String}
    (h : Offered settings s anchor p set) (hread : disk.read out = .ok p.payload) : Trusted settings disk out set :=
  ⟨anchor, p.payload, h.anchor_eq, hread, h.decoded, h.verified⟩

theorem offered_of_wrote {disk : Disk} {node : Except Fault (Session Peer)} {out name : String} {content : Bytes}
    (h : .wrote name content ∈ ((fetchComputorList settings out).run (World.start disk node)).2.deeds) :
    ∃ s anchor p set, node = .ok s ∧ Offered settings s anchor p set ∧ name = out ∧ content = p.payload ∧
      ∀ disk', disk.write out p.payload = (.ok (), disk') →
        ((fetchComputorList settings out).run (World.start disk node)).2.disk = disk' ∧
          disk'.read out = .ok p.payload ∧ ComputorSet.loadFile disk' out anchor = .ok ⟨set, .verified⟩ ∧
          Trusted settings disk' out set := by
  by_cases hsome : ∃ s, node = .ok s ∧ Nonempty (ListDownload settings s)
  · obtain ⟨s, hnode, ⟨d⟩⟩ := hsome
    obtain ⟨p, hoffered⟩ := d.exists_offered
    obtain ⟨⟨lines, hdeeds⟩, hsaved, -⟩ := writesOnce_fetchComputorList (w := World.start disk node) out hnode d
    rw [hoffered.toBytes_eq] at hdeeds hsaved
    rw [hdeeds] at h
    obtain ⟨rfl, rfl⟩ : name = out ∧ content = p.payload := by simpa [World.start] using h
    refine ⟨s, d.anchor, p, d.set, hnode, hoffered, rfl, rfl, fun disk' hwrite => ?_⟩
    obtain ⟨-, hdisk, hread⟩ := hsaved disk' hwrite
    rw [hdisk] at hread
    exact ⟨hdisk, hread, hoffered.loadFile hread, hoffered.trusted hread⟩
  · have hnone (s : Session Peer) (hnode : node = .ok s) : IsEmpty (ListDownload settings s) :=
      ⟨fun d => hsome ⟨s, hnode, ⟨d⟩⟩⟩
    exact absurd h ((leftAlone_fetchComputorList out hnone).2.2.unwritten name content)

/-- **No command acts on a list that is not trusted.** Whatever the settings, the files and the node: counting votes
and looking for a transaction go on with the list in a file if it is trusted, and otherwise end with an error before
anything is shown, asked or read; the header's signature is told to be unchecked exactly in receipts for which no file
was given; and a list is written only if the node offers one that is trusted, and is then read back as it was
offered. -/
theorem trusted_before_use (settings : Settings) (disk : Disk) (node : Except Fault (Session Peer)) :
    (∀ file, (∀ set, ¬ Trusted settings disk file set) →
      (∀ tick, Refused disk node file ((getQuorumTick file tick false).outcome settings disk node)) ∧
      (∀ tick wanted wait,
        Refused disk node file ((checkTxOnTick tick wanted (some file) wait).outcome settings disk node)) ∧
      ∀ wanted archive,
        Refused disk node file ((checkTxOnFile wanted archive (some file)).outcome settings disk node)) ∧
    (∀ file set, Trusted settings disk file set →
      (∀ tick, (getQuorumTick file tick false).outcome settings disk node =
        (countVotes set tick).run ((World.start disk node).record (.read file))) ∧
      (∀ tick wanted wait, (checkTxOnTick tick wanted (some file) wait).outcome settings disk node =
        (lookOnTick (some set) tick wanted wait).run ((World.start disk node).record (.read file))) ∧
      ∀ wanted archive, (checkTxOnFile wanted archive (some file)).outcome settings disk node =
        (lookOnFile (some set) wanted archive).run ((World.start disk node).record (.read file))) ∧
    (∀ tick wanted given wait,
      TickHeader.uncheckedLine ∈ ((checkTxOnTick tick wanted given wait).outcome settings disk node).2.printed ↔
        given = none ∧ ∃ r : Receipt,
          ((checkTxOnTick tick wanted given wait).outcome settings disk node).2.printed = r.lines) ∧
    (∀ wanted archive given,
      TickHeader.uncheckedLine ∈ ((checkTxOnFile wanted archive given).outcome settings disk node).2.printed ↔
        given = none ∧ ∃ r : Receipt,
          ((checkTxOnFile wanted archive given).outcome settings disk node).2.printed = r.lines) ∧
    ∀ out,
      (∀ name content, .wrote name content ∈ ((getComputorList out).outcome settings disk node).2.deeds →
        ∃ s anchor p set, node = .ok s ∧ Offered settings s anchor p set ∧ name = out ∧ content = p.payload ∧
          ∀ disk', disk.write out p.payload = (.ok (), disk') →
            ((getComputorList out).outcome settings disk node).2.disk = disk' ∧
              disk'.read out = .ok p.payload ∧ ComputorSet.loadFile disk' out anchor = .ok ⟨set, .verified⟩ ∧
              Trusted settings disk' out set) ∧
      ((∀ s anchor p set, node = .ok s → ¬ Offered settings s anchor p set) →
        (∃ e, ((getComputorList out).outcome settings disk node).1 = .error e) ∧
          ((getComputorList out).outcome settings disk node).2.printed = [] ∧
          LeftAlone disk ((getComputorList out).outcome settings disk node).2) := by
  refine ⟨fun file h => ⟨refused_showQuorum h, fun tick wanted wait => refused_of_untrusted h _,
    fun wanted archive => refused_of_untrusted h _⟩, fun file set h => ⟨run_showQuorum_of_trusted h,
    fun tick wanted wait => run_of_trusted h _, fun wanted archive => run_of_trusted h _⟩, ?_, ?_,
    fun out => ⟨fun name content => offered_of_wrote, fun h => leftAlone_fetchComputorList out fun s hnode => ?_⟩⟩
  · intro tick wanted given wait
    exact uncheckedLine_mem_printed_iff (fun c w => told_lookOnTick c tick wanted wait w) settings disk node given
  · intro wanted archive given
    exact uncheckedLine_mem_printed_iff (fun c w => told_lookOnFile c wanted archive w) settings disk node given
  · refine ⟨fun d => ?_⟩
    obtain ⟨p, hoffered⟩ := d.exists_offered
    exact h s d.anchor p d.set hnode hoffered

/-! ## A forged list and a signed one -/

/-- A computor list with a signature that holds under no key. -/
def forgedSet : ComputorSet := ⟨⟨0, .replicate 676 Vote.someKey⟩, ⟨.replicate 64 255⟩⟩

/-- The same list with a signature that holds under the key of all its computors. -/
def signedSet : ComputorSet where
  body := forgedSet.body
  signature := ⟨⟨[128, 166, 35, 67, 100, 193, 187, 156, 45, 17, 31, 62, 193, 222, 90, 68, 182, 43, 107, 215, 15, 145, 69,
    113, 140, 55, 148, 142, 250, 169, 241, 184, 156, 155, 187, 97, 78, 163, 196, 116, 128, 5, 112, 59, 146, 172, 18, 133,
    59, 76, 93, 69, 209, 183, 34, 233, 108, 51, 158, 100, 132, 223, 109, 9], rfl⟩⟩

/-- Settings with this key as the trust anchor. -/
def anchored : Settings := { Settings.ofNode "node" with anchor := some Vote.someKey }

/-- A disk with both lists and with an archive, behind which something comes. -/
def someDisk : Disk :=
  .ofFiles [(["forged"], forgedSet.toBytes), (["signed"], signedSet.toBytes),
    (["archive"], Archive.toBytes Archive.twoRecords Archive.swapped ++ [9, 9])]

/-- A node that gives a list. -/
def listingNode (set : ComputorSet) : Peer :=
  .ofScript [] [.holding .broadcastComputors (Nonce.ofNat 0).val [set.toBytes]]

theorem verify_forgedSet (anchor : PublicKey) : forgedSet.verify anchor = false := Signed.verify_of_forged rfl

theorem verify_signedSet : signedSet.verify Vote.someKey = true := by
  rw [Signed.verify, Signed.signingDigest, Sha2.sha256_eq_onNaturals]
  decide +kernel

theorem read_forged : someDisk.read "forged" = .ok forgedSet.toBytes := Disk.IsEntry.read_eq (by decide +kernel) rfl

theorem read_signed : someDisk.read "signed" = .ok signedSet.toBytes := Disk.IsEntry.read_eq (by decide +kernel) rfl

theorem read_archive :
    someDisk.read "archive" = .ok (Archive.toBytes Archive.twoRecords Archive.swapped ++ [9, 9]) :=
  Disk.IsEntry.read_eq (by decide +kernel) rfl

theorem not_trusted_forged (set : ComputorSet) : ¬ Trusted anchored someDisk "forged" set := by
  rintro ⟨anchor, bs, -, hread, hparse, hverify⟩
  obtain rfl := Except.ok.inj (read_forged.symm.trans hread)
  obtain rfl := Except.ok.inj ((ComputorSet.ofBytes_toBytes _).symm.trans hparse)
  exact Bool.false_ne_true ((verify_forgedSet anchor).symm.trans hverify)

theorem trusted_signed : Trusted anchored someDisk "signed" signedSet :=
  ⟨_, _, rfl, read_signed, signedSet.ofBytes_toBytes, verify_signedSet⟩

/-- What is heard from a node that gives a list. -/
theorem exists_run_listingNode (set : ComputorSet) (anchor : PublicKey) :
    ∃ after, (Session.start (listingNode set) Nonce.ofNat).run (ComputorSet.exchange anchor) =
      (.ok (some ⟨set, .ofBool (set.verify anchor)⟩), after) := by
  have hrequest : ([] : Bytes).length + Header.size < Header.maxTotal := by decide
  obtain ⟨arrived, hrun⟩ := Session.run_of_holding (ComputorSet.takesFirst_exchange anchor).patient (by decide)
    hrequest ((ComputorSet.takesFirst_exchange anchor).hearAll_holding (Nonce.ofNat 0).val set.fits_toBytes
      (load_of_ofBytes set.ofBytes_toBytes anchor)) [] []
  exact ⟨_, hrun⟩

theorem not_offered_forged (anchor : PublicKey) (p : Packet) (set : ComputorSet) :
    ¬ Offered anchored (Session.start (listingNode forgedSet) Nonce.ofNat) anchor p set := by
  intro h
  obtain ⟨after, hrun⟩ := exists_run_listingNode forgedSet anchor
  have hfirst : Packet.first .broadcastComputors (ComputorSet.load anchor)
      (Session.start (listingNode forgedSet) Nonce.ofNat).answer = .ok (some ⟨forgedSet, .unverified⟩) := by
    rw [verify_forgedSet] at hrun
    exact (ComputorSet.takesFirst_exchange anchor).first_of_run rfl hrun
  rw [Packet.first, h.first] at hfirst
  simp only [load_of_ofBytes h.decoded, h.verified] at hfirst
  cases hfirst

theorem exists_listDownload_signed :
    ∃ d : ListDownload anchored (Session.start (listingNode signedSet) Nonce.ofNat), d.set = signedSet := by
  obtain ⟨after, hrun⟩ := exists_run_listingNode signedSet Vote.someKey
  rw [verify_signedSet] at hrun
  exact ⟨⟨_, _, after, rfl, hrun⟩, rfl⟩

/-- The signed list is written by the command that fetches it. -/
theorem wrote_signed (out : String) :
    .wrote out signedSet.toBytes ∈ ((getComputorList out).outcome anchored someDisk
      (.ok (Session.start (listingNode signedSet) Nonce.ofNat))).2.deeds := by
  obtain ⟨d, hset⟩ := exists_listDownload_signed
  obtain ⟨⟨lines, hdeeds⟩, -⟩ := writesOnce_fetchComputorList (w := World.start someDisk _) out rfl d
  rw [hset] at hdeeds
  exact hdeeds ▸ by simp

/-- Without a list a transaction of the archive is found. -/
theorem exists_receipt_someDisk (node : Except Fault (Session Peer)) :
    ∃ r : Receipt, ((checkTxOnFile (Transaction.blank 2 [7]).id "archive" none).outcome anchored someDisk
      node).2.printed = r.lines := by
  obtain ⟨ts, s', harchive, -⟩ := Archive.read_of_parts (Source.delivers_ofBytes _) (Archive.Parts.ofRecords
    Archive.twoRecords Archive.swapped [9, 9] Archive.input_swapped Archive.nodup_twoRecords Archive.perm_swapped)
  have hok := congrArg Prod.fst harchive
  obtain ⟨slot, t, hfind, -⟩ := Location.exists_findIn_twoRecords hok
  have hcontent : Archive.ofContent (someDisk.read "archive") = .ok ⟨Archive.twoRecords, ts⟩ := by
    rw [read_archive, Archive.ofContent]
    exact hok
  exact ⟨_, printed_of_found hcontent (Location.locateInArchive_of_findIn hfind)⟩

/-- A list with a forged signature is neither used nor saved, and without a list a receipt says so. A signed list is
used, and is trusted where it has been saved. -/
theorem trusted_before_use_forged_and_signed :
    (Refused someDisk (.ok (Session.start (listingNode forgedSet) Nonce.ofNat)) "forged"
        ((getQuorumTick "forged" 5 false).outcome anchored someDisk
          (.ok (Session.start (listingNode forgedSet) Nonce.ofNat))) ∧
      LeftAlone someDisk ((getComputorList "forged").outcome anchored someDisk
        (.ok (Session.start (listingNode forgedSet) Nonce.ofNat))).2 ∧
      TickHeader.uncheckedLine ∈ ((checkTxOnFile (Transaction.blank 2 [7]).id "archive" none).outcome anchored someDisk
        (.ok (Session.start (listingNode forgedSet) Nonce.ofNat))).2.printed) ∧
    (getQuorumTick "signed" 5 false).outcome anchored someDisk
        (.ok (Session.start (listingNode signedSet) Nonce.ofNat)) =
      (countVotes signedSet 5).run
        ((World.start someDisk (.ok (Session.start (listingNode signedSet) Nonce.ofNat))).record (.read "signed")) ∧
    Trusted anchored ((getComputorList "forged").outcome anchored someDisk
      (.ok (Session.start (listingNode signedSet) Nonce.ofNat))).2.disk "forged" signedSet := by
  obtain ⟨hrefused, -, -, hunchecked, hlist⟩ :=
    trusted_before_use anchored someDisk (.ok (Session.start (listingNode forgedSet) Nonce.ofNat))
  obtain ⟨-, hused, -, -, hsaved⟩ :=
    trusted_before_use anchored someDisk (.ok (Session.start (listingNode signedSet) Nonce.ofNat))
  refine ⟨⟨(hrefused "forged" not_trusted_forged).1 5, ((hlist "forged").2 fun s anchor p set hnode => ?_).2.2,
    (hunchecked ..).mpr ⟨rfl, exists_receipt_someDisk _⟩⟩, (hused "signed" signedSet trusted_signed).1 5, ?_⟩
  · obtain rfl := Except.ok.inj hnode
    exact not_offered_forged anchor p set
  · obtain ⟨s, anchor, p, set, -, hoffered, -, hcontent, hwritten⟩ :=
      (hsaved "forged").1 "forged" signedSet.toBytes (wrote_signed "forged")
    have hset : signedSet = set :=
      Except.ok.inj (signedSet.ofBytes_toBytes.symm.trans (hcontent ▸ hoffered.decoded))
    have htarget : someDisk.target "forged" = .ok ["forged"] :=
      Disk.IsEntry.target_eq (by decide +kernel) (by decide +kernel)
    obtain ⟨hdisk, -, -, htrusted⟩ := hwritten _ (Disk.write_of_target htarget rfl p.payload)
    rw [hdisk, hset]
    exact htrusted

end Command

end LightClient
