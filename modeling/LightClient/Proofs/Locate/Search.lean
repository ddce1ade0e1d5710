import LightClient.Locate
/-!
# How far looking for a transaction comes

Looking for a transaction at a node asks for the current tick, for the header and for the transactions under it, and
if one of them is found, for the report (`run_locate`, `run_locateUnder`). Where the network is past the tick, a run
with an outcome comes to one of two places: to a tick without a published header (`Unproduced`), or to transactions
among which to look (`Search`). So a run in which nothing is found ends in one of these (`notFound_iff`).
-/
namespace LightClient.Location

variable {σ : Type} [Transport σ] {computors : Option ComputorSet} {wanted : String} {tick : UInt32} {s : Session σ}

/-- What a node's report, if it gave one, says of a digest. -/
def statusIn (report : Option TxStatus) (digest : Digest) : ExecutionStatus :=
  match report with
  | some r => r.statusOf digest
  | none => .unknown

/-! ## A run -/

theorem run_fetchHeader (tick : UInt32) (s : Session σ) :
    (TickHeader.fetch tick).run s =
      match s.run (TickHeader.exchange tick) with
      | (.error e, t) => (.error e, t)
      | (.ok heard, t) => (.ok (heard.filter fun h => !h.body.isEmpty), t) := by
  refine (Dialogue.run_once_bind _ _ s).trans ?_
  rcases s.run (TickHeader.exchange tick) with ⟨e | heard, t⟩ <;> rfl

theorem run_locateUnder (computors : Option ComputorSet) (wanted : String) (tick : UInt32)
    (header : TickHeader) (s : Session σ) :
    (locateUnder computors wanted tick header).run s =
      match (Transaction.fetch tick header.body.transactionCount).run s with
      | (.error e, t) => (.error e, t)
      | (.ok transactions, t) =>
          match findIn header transactions wanted with
          | none => (.ok notFound, t)
          | some (slot, transaction) =>
              match t.run (TxStatus.exchange tick) with
              | (.error e, u) => (.error e, u)
              | (.ok report, u) =>
                  (.ok (found (receipt tick slot transaction (checkHeader computors header)
                    (statusIn report transaction.hash))), u) := by
  refine (Dialogue.run_bind _ _ s).trans ?_
  rcases (Transaction.fetch tick header.body.transactionCount).run s with ⟨e | transactions, t⟩
  · rfl
  · simp only
    cases findIn header transactions wanted with
    | none => rfl
    | some place =>
      refine (Dialogue.run_once_bind _ _ t).trans ?_
      rcases t.run (TxStatus.exchange tick) with ⟨e | _ | report, u⟩ <;> rfl

theorem run_locate (computors : Option ComputorSet) (wanted : String) (tick : UInt32) (s : Session σ) :
    (locate computors wanted tick).run s =
      match s.run TickInfo.exchange with
      | (.error e, t) => (.error e, t)
      | (.ok none, t) => (.error (.connectivity .silentNode), t)
      | (.ok (some current), t) =>
          if current.tick ≤ tick then (.ok (notYetFinalized tick current.tick), t)
          else
            match t.run (TickHeader.exchange tick) with
            | (.error e, u) => (.error e, u)
            | (.ok heard, u) =>
                match heard.filter fun h => !h.body.isEmpty with
                | none => (.ok notFound, u)
                | some header => (locateUnder computors wanted tick header).run u := by
  refine (Dialogue.run_once_bind _ _ s).trans ?_
  rcases s.run TickInfo.exchange with ⟨e | _ | current, t⟩
  · rfl
  · rfl
  · simp only
    split
    · rfl
    · refine (Dialogue.run_bind _ _ t).trans ?_
      rw [run_fetchHeader]
      rcases t.run (TickHeader.exchange tick) with ⟨e | heard, u⟩
      · rfl
      · simp only
        cases heard.filter fun h => !h.body.isEmpty <;> rfl

theorem run_locateUnder_ne_notYetFinalized (computors : Option ComputorSet) (wanted : String) (tick : UInt32)
    (header : TickHeader) (s : Session σ) (t c : UInt32) :
    ((locateUnder computors wanted tick header).run s).1 ≠ .ok (notYetFinalized t c) := by
  rw [run_locateUnder]
  rcases (Transaction.fetch tick header.body.transactionCount).run s with ⟨e | transactions, u⟩
  · simp
  · simp only
    cases findIn header transactions wanted with
    | none => simp
    | some place => rcases hreport : u.run (TxStatus.exchange tick) with ⟨e | report, v⟩ <;> simp

/-- The tick has not passed exactly if a current tick is heard of that is not later. -/
theorem run_eq_notYetFinalized_iff {t c : UInt32} :
    ((locate computors wanted tick).run s).1 = .ok (notYetFinalized t c) ↔
      t = tick ∧ c ≤ tick ∧ ∃ info, (s.run TickInfo.exchange).1 = .ok (some info) ∧ info.tick = c := by
  rw [run_locate]
  rcases s.run TickInfo.exchange with ⟨e | _ | info, u⟩
  · simp
  · simp
  by_cases hpast : info.tick ≤ tick
  · simp only [if_pos hpast, Except.ok.injEq, notYetFinalized.injEq, Option.some.injEq, exists_eq_left']
    constructor
    · rintro ⟨rfl, rfl⟩
      exact ⟨rfl, hpast, rfl⟩
    · rintro ⟨rfl, -, rfl⟩
      exact ⟨rfl, rfl⟩
  · have hlate : ¬(t = tick ∧ c ≤ tick ∧ ∃ i, (Except.ok (some info) : Outcome (Option TickInfo)) = .ok (some i) ∧
        i.tick = c) := by
      rintro ⟨-, hle, i, hi, rfl⟩
      cases hi
      exact hpast hle
    simp only [if_neg hpast, iff_false_intro hlate, iff_false]
    rcases u.run (TickHeader.exchange tick) with ⟨e | heard, v⟩
    · simp
    · simp only
      cases heard.filter fun h => !h.body.isEmpty with
      | none => simp
      | some header => exact run_locateUnder_ne_notYetFinalized computors wanted tick header v t c

/-! ## How far a run comes -/

/-- A run that ends at a past tick for which there is no header, or one of a tick that was not produced. -/
structure Unproduced (tick : UInt32) (s : Session σ) where
  info : TickInfo
  afterInfo : Session σ
  heard : Option TickHeader
  afterHeader : Session σ
  run_info : s.run TickInfo.exchange = (.ok (some info), afterInfo)
  past : tick < info.tick
  run_header : afterInfo.run (TickHeader.exchange tick) = (.ok heard, afterHeader)
  unpublished : ∀ header ∈ heard, header.body.isEmpty = true

/-- A run up to where the published header of a past tick and the transactions that the node gave are at hand. -/
structure Search (tick : UInt32) (s : Session σ) where
  info : TickInfo
  afterInfo : Session σ
  header : TickHeader
  afterHeader : Session σ
  transactions : List Transaction
  afterTransactions : Session σ
  run_info : s.run TickInfo.exchange = (.ok (some info), afterInfo)
  past : tick < info.tick
  run_header : afterInfo.run (TickHeader.exchange tick) = (.ok (some header), afterHeader)
  published : header.body.isEmpty = false
  run_transactions : (Transaction.fetch tick header.body.transactionCount).run afterHeader =
    (.ok transactions, afterTransactions)

theorem filter_published {header : TickHeader} (h : header.body.isEmpty = false) :
    (some header).filter (fun h => !h.body.isEmpty) = some header := by
  simp [h]

theorem run_fetchHeader_of_run {header : TickHeader} {s' : Session σ}
    (h : s.run (TickHeader.exchange tick) = (.ok (some header), s')) (hpublished : header.body.isEmpty = false) :
    (TickHeader.fetch tick).run s = (.ok (some header), s') := by
  rw [run_fetchHeader, h]
  simp only [filter_published hpublished]

theorem Unproduced.run (place : Unproduced tick s) (computors : Option ComputorSet) (wanted : String) :
    (locate computors wanted tick).run s = (.ok .notFound, place.afterHeader) := by
  have hnone : place.heard.filter (fun h => !h.body.isEmpty) = none := by
    rw [Option.filter_eq_none_iff]
    exact fun header hheader => by simp [place.unpublished header hheader]
  simp only [run_locate, place.run_info, if_neg (UInt32.not_le.mpr place.past), place.run_header, hnone]

namespace Search

variable (search : Search tick s)

/-- Looking for a transaction goes on with what is found in a search. -/
theorem run_of_findIn (computors : Option ComputorSet) (wanted : String) :
    (locate computors wanted tick).run s =
      match findIn search.header search.transactions wanted with
      | none => (.ok .notFound, search.afterTransactions)
      | some (slot, transaction) =>
          match search.afterTransactions.run (TxStatus.exchange tick) with
          | (.error e, u) => (.error e, u)
          | (.ok report, u) =>
              (.ok (found (receipt tick slot transaction (checkHeader computors search.header)
                (statusIn report transaction.hash))), u) := by
  simp only [run_locate, search.run_info, if_neg (UInt32.not_le.mpr search.past), search.run_header,
    filter_published search.published, run_locateUnder, search.run_transactions]

theorem notFound_iff_findIn (computors : Option ComputorSet) (wanted : String) :
    ((locate computors wanted tick).run s).1 = .ok .notFound ↔
      findIn search.header search.transactions wanted = none := by
  rw [search.run_of_findIn]
  cases findIn search.header search.transactions wanted with
  | none => simp
  | some place =>
    rcases hreport : search.afterTransactions.run (TxStatus.exchange tick) with ⟨e | report, u⟩ <;> simp

end Search

/-- A run with an outcome, unless the tick has not passed, comes to one of the two places. -/
theorem unproduced_or_search {location : Location} (h : ((locate computors wanted tick).run s).1 = .ok location)
    (hpast : ∀ current, location ≠ .notYetFinalized tick current) :
    Nonempty (Unproduced tick s) ∨ Nonempty (Search tick s) := by
  rw [run_locate] at h
  rcases hinfo : s.run TickInfo.exchange with ⟨e | _ | info, t⟩ <;> simp only [hinfo, reduceCtorEq] at h
  split at h
  · cases h
    exact absurd rfl (hpast info.tick)
  rename_i hinfoPast
  rcases hheader : t.run (TickHeader.exchange tick) with ⟨e | heard, u⟩ <;> simp only [hheader, reduceCtorEq] at h
  split at h
  · rename_i hnone
    exact .inl ⟨{
      info, heard
      afterInfo := t
      afterHeader := u
      run_info := hinfo
      past := UInt32.not_le.mp hinfoPast
      run_header := hheader
      unpublished := fun header hheader => by simpa using Option.filter_eq_none_iff.mp hnone header hheader }⟩
  · rename_i header hheard
    obtain ⟨rfl, hpublished⟩ := Option.filter_eq_some_iff.mp hheard
    rw [run_locateUnder] at h
    rcases htransactions : (Transaction.fetch tick header.body.transactionCount).run u with
      ⟨e | transactions, v⟩ <;> simp only [htransactions, reduceCtorEq] at h
    exact .inr ⟨{
      info, header, transactions
      afterInfo := t
      afterHeader := u
      afterTransactions := v
      run_info := hinfo
      past := UInt32.not_le.mp hinfoPast
      run_header := hheader
      published := by simpa using hpublished
      run_transactions := htransactions }⟩

/-- Nothing is found exactly at a tick without a published header and in a search that does not find the text. -/
theorem notFound_iff (computors : Option ComputorSet) (wanted : String) :
    ((locate computors wanted tick).run s).1 = .ok .notFound ↔
      Nonempty (Unproduced tick s) ∨
        ∃ search : Search tick s, findIn search.header search.transactions wanted = none := by
  constructor
  · intro h
    rcases unproduced_or_search h (by simp) with hplace | ⟨⟨search⟩⟩
    · exact .inl hplace
    · exact .inr ⟨search, (search.notFound_iff_findIn computors wanted).mp h⟩
  · rintro (⟨⟨place⟩⟩ | ⟨search, hnone⟩)
    · rw [place.run]
    · exact (search.notFound_iff_findIn computors wanted).mpr hnone

end LightClient.Location
