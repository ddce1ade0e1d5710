import LightClient.Proofs.Locate.ReceiptTick
import LightClient.Proofs.Transaction.Taken
/-!
# What it means that nothing is found

Under a published header nothing is found exactly if no transaction that was taken of the answer has a digest that the
header lists and the text names (`Search.notFound_iff_untaken`). So a negative answer can be trusted where every
listed digest is that of a transaction that was taken (`Search.notFound_iff_unlisted`), but a node may also leave out a
listed transaction, or send others before it, and nothing is found then (`notFound_node`).
-/
namespace LightClient.Location

variable {wanted : String} {tick : UInt32} {info : TickInfo} {header : TickHeader}
  {transactions : List Transaction}

/-- A header lists a digest that the text names. -/
def Listed (header : TickHeader) (wanted : String) : Prop :=
  ∃ d ∈ header.body.listed, Identity.same (Identity.encode .lower d) wanted = true

namespace Search

section

variable {σ : Type} [Transport σ] {s : Session σ} (search : Search tick s)

/-- Every digest that the header lists is that of a transaction that was taken. -/
def Complete : Prop := search.header.body.listed ⊆ search.transactions.map Transaction.hash

theorem notFound_iff_untaken (computors : Option ComputorSet) (wanted : String) :
    ((locate computors wanted tick).run s).1 = .ok .notFound ↔
      ∀ d ∈ search.header.body.listed, Identity.same (Identity.encode .lower d) wanted = true →
        d ∉ search.transactions.map Transaction.hash := by
  rw [search.notFound_iff_findIn, findIn_eq_none_iff]

/-- A search among all that is listed decides what is listed. -/
theorem notFound_iff_unlisted (hcomplete : search.Complete) (computors : Option ComputorSet) (wanted : String) :
    ((locate computors wanted tick).run s).1 = .ok .notFound ↔ ¬ Listed search.header wanted := by
  rw [search.notFound_iff_untaken]
  constructor
  · rintro huntaken ⟨d, hlisted, hnamed⟩
    exact huntaken d hlisted hnamed (hcomplete hlisted)
  · exact fun hunlisted d hlisted hnamed => absurd ⟨d, hlisted, hnamed⟩ hunlisted

end

variable {s : Session Peer} (search : Search tick s)

/-- The header of a search is the first one in the answer to the second request. -/
theorem first_header : Packet.first .broadcastTickHeader TickHeader.ofBytes search.afterInfo.answer =
    .ok (some search.header) :=
  (TickHeader.takesFirst_exchange tick).first_of_run rfl search.run_header

end Search

/-- Nothing is found at a node that sends other transactions first, or none, whatever its header lists. -/
theorem notFound_node (computors : Option ComputorSet) (nonces : Nat → Nonce) (hpast : tick < info.tick)
    (hpublished : header.body.isEmpty = false)
    (hinput : ∀ t ∈ transactions, t.body.input.length ≤ Transfer.maxInput) (report : Option TxStatus)
    (hother : ∀ t ∈ transactions.take header.body.transactionCount, Identity.same t.id wanted = false) :
    ∃ search : Search tick (Session.start (node nonces info header transactions report) nonces),
      search.header = header ∧
        ((locate computors wanted tick).run
          (Session.start (node nonces info header transactions report) nonces)).1 = .ok .notFound := by
  obtain ⟨search, hheader, htake, -⟩ := exists_search_node nonces hpast hpublished hinput report
  refine ⟨search, hheader, (search.notFound_iff_untaken computors wanted).mpr fun d _ hnamed hmem => ?_⟩
  obtain ⟨t, ht, rfl⟩ := List.mem_map.mp hmem
  exact Bool.false_ne_true ((hother t (htake ▸ ht)).symm.trans hnamed)

/-- **A negative answer is about what was taken.** Nothing is found where the header of a past tick is not published,
and under a published header where none of the transactions that the answer begins with has a digest that the header
lists and the text names. If each listed digest is that of such a transaction, this says that the header does not list
what the text names. Otherwise it says nothing about the header: a node that sends other transactions, or none, gets a
negative answer for any text and any published header. -/
theorem negative_answer (computors : Option ComputorSet) (wanted : String) (tick : UInt32) :
    (∀ s : Session Peer, ((locate computors wanted tick).run s).1 = .ok .notFound ↔
      Nonempty (Unproduced tick s) ∨ ∃ search : Search tick s, ∀ d ∈ search.header.body.listed,
        Identity.same (Identity.encode .lower d) wanted = true → d ∉ search.transactions.map Transaction.hash) ∧
    (∀ (s : Session Peer) (search : Search tick s),
      Packet.first .broadcastTickHeader TickHeader.ofBytes search.afterInfo.answer = .ok (some search.header) ∧
      Transaction.Decoded (Packet.leading .broadcastTransaction search.header.body.transactionCount
        search.afterHeader.answer) search.transactions ∧
      (search.Complete → (((locate computors wanted tick).run s).1 = .ok .notFound ↔
        ¬ Listed search.header wanted))) ∧
    ∀ (nonces : Nat → Nonce) (info : TickInfo) (header : TickHeader) (transactions : List Transaction)
        (report : Option TxStatus), tick < info.tick → header.body.isEmpty = false →
      (∀ t ∈ transactions, t.body.input.length ≤ Transfer.maxInput) →
      (∀ t ∈ transactions.take header.body.transactionCount, Identity.same t.id wanted = false) →
      ∃ search : Search tick (Session.start (node nonces info header transactions report) nonces),
        search.header = header ∧
          ((locate computors wanted tick).run
            (Session.start (node nonces info header transactions report) nonces)).1 = .ok .notFound := by
  refine ⟨fun s => ?_, fun s search => ?_, fun nonces info header transactions report => ?_⟩
  · simp only [notFound_iff, findIn_eq_none_iff]
  · exact ⟨search.first_header, Transaction.decoded_of_run_fetch search.run_transactions,
      fun hcomplete => search.notFound_iff_unlisted hcomplete computors wanted⟩
  · exact fun hpast hpublished hinput hother => notFound_node computors nonces hpast hpublished hinput report hother

/-! ## Nodes with a header that lists one transaction -/

theorem listed_headerOf (given : UInt32) : (headerOf given).body.listed = [(Transaction.blank 1 []).hash] :=
  TickHeader.listed_listing (by simpa using Transaction.isZero_hash_blank.1)

theorem transactionCount_headerOf (given : UInt32) : (headerOf given).body.transactionCount = 1 := by
  rw [← TickData.length_listed, listed_headerOf]
  rfl

theorem listed_id_headerOf (given : UInt32) : Listed (headerOf given) (Transaction.blank 1 []).id := by
  rw [Listed, listed_headerOf]
  exact ⟨_, List.mem_singleton_self _, Identity.same_encode_self ..⟩

theorem same_blank : Identity.same (Transaction.blank 2 [7]).id (Transaction.blank 1 []).id = false :=
  Bool.eq_false_iff.mpr fun hsame => Transaction.hash_blank_ne
    (Identity.eq_of_same (Identity.same_encode_self .lower _) hsame)

theorem not_listed_headerOf (given : UInt32) : ¬ Listed (headerOf given) (Transaction.blank 2 [7]).id := by
  rw [Listed, listed_headerOf]
  rintro ⟨d, hd, hnamed⟩
  rw [List.mem_singleton.mp hd] at hnamed
  exact Transaction.hash_blank_ne (Identity.eq_of_same hnamed (Identity.same_encode_self .lower _))

/-- A node that sends what its header lists: another transaction is not found, and the listed one is. -/
theorem negative_answer_complete :
    ∃ search : Search 5 (Session.start (nodeWith 5) Nonce.ofNat), search.Complete ∧
      ((locate none (Transaction.blank 2 [7]).id 5).run (Session.start (nodeWith 5) Nonce.ofNat)).1 =
        .ok .notFound ∧
      ((locate none (Transaction.blank 1 []).id 5).run (Session.start (nodeWith 5) Nonce.ofNat)).1 ≠
        .ok .notFound := by
  have hpast : 5 < (⟨0, 0, 6, 0, 0, 0⟩ : TickInfo).tick := by decide
  have hinput : ∀ t ∈ [Transaction.blank 1 []], t.body.input.length ≤ Transfer.maxInput := by decide
  obtain ⟨search, hheader, htake, -⟩ :=
    exists_search_node Nonce.ofNat hpast (rfl : (headerOf 5).body.isEmpty = false) hinput (some (reportOf 5))
  have hcomplete : search.Complete := by
    rw [Search.Complete, hheader, htake, listed_headerOf, transactionCount_headerOf]
    exact List.Subset.refl _
  obtain ⟨-, habsent, -⟩ := negative_answer none (Transaction.blank 2 [7]).id 5
  obtain ⟨-, hpresent, -⟩ := negative_answer none (Transaction.blank 1 []).id 5
  obtain ⟨-, -, hother⟩ := habsent _ search
  obtain ⟨-, -, hsame⟩ := hpresent _ search
  refine ⟨search, hcomplete, (hother hcomplete).mpr ?_, fun h => (hsame hcomplete).mp h ?_⟩
  · rw [hheader]
    exact not_listed_headerOf 5
  · rw [hheader]
    exact listed_id_headerOf 5

/-- A node whose header lists one transaction, and which sends another one before it. -/
def hidingNode : Peer :=
  node Nonce.ofNat ⟨0, 0, 6, 0, 0, 0⟩ (headerOf 5) [.blank 2 [7], .blank 1 []] none

/-- Such a node hides what its header lists: this transaction is not found. -/
theorem notFound_hides_listed :
    ∃ search : Search 5 (Session.start hidingNode Nonce.ofNat),
      Listed search.header (Transaction.blank 1 []).id ∧
        ((locate none (Transaction.blank 1 []).id 5).run (Session.start hidingNode Nonce.ofNat)).1 =
          .ok .notFound := by
  have hpast : 5 < (⟨0, 0, 6, 0, 0, 0⟩ : TickInfo).tick := by decide
  have hinput : ∀ t ∈ [Transaction.blank 2 [7], .blank 1 []], t.body.input.length ≤ Transfer.maxInput := by decide
  have hother : ∀ t ∈ [Transaction.blank 2 [7], .blank 1 []].take (headerOf 5).body.transactionCount,
      Identity.same t.id (Transaction.blank 1 []).id = false := by
    rw [transactionCount_headerOf]
    simpa using same_blank
  obtain ⟨search, hheader, hnone⟩ :=
    notFound_node none Nonce.ofNat hpast (rfl : (headerOf 5).body.isEmpty = false) hinput none hother
  exact ⟨search, hheader ▸ listed_id_headerOf 5, hnone⟩

end LightClient.Location
