import Mathlib.Data.List.Sort
import Mathlib.Data.PNat.Basic
import MonCTL.Basic
import MonCTL.Lib.Pages

/-!
# Pages of the Result History

A page of the history asks every table for its own rows of the page, merges them, takes out those of
other roles, and cuts what is left. The tables have their rows newest first.

Errors of the database and the fields that are only shown are left out.
-/

namespace MonCTL.Results

open List

/-- The tables of results. -/
inductive HistoryTable
  | availabilityLatency
  | performance
  | interface
  | config
  deriving DecidableEq

/-- A row. Only the rows of some tables have a role. -/
structure Row where
  executedAt : Timestamp
  tenantId : Uuid
  deviceId : Uuid
  collectorId : Uuid
  appId : Uuid
  state : ℕ
  role : Option String := none
  deriving DecidableEq

/-- The content of the tables. -/
structure Content where
  rows : HistoryTable → List Row
  distinct : ∀ t, ((rows t).map Row.executedAt).Nodup
  apart : ∀ t t', t ≠ t' → ∀ x ∈ rows t, ∀ y ∈ rows t', x.executedAt ≠ y.executedAt

/-- The parameters of a request, with the tenants of the caller. -/
structure Filter where
  table : Option HistoryTable := none
  tenantIds : Option (List Uuid) := none
  deviceId : Option Uuid := none
  collectorId : Option Uuid := none
  appId : Option Uuid := none
  state : Option ℕ := none
  fromTs : Option Timestamp := none
  toTs : Option Timestamp := none
  roles : Option (List String) := none

/-- The tables that are read. -/
def Filter.tables (f : Filter) : List HistoryTable :=
  f.table.elim [.availabilityLatency, .performance, .config] ([·])

/-- The conditions of `query_history`. -/
def Filter.Matches (f : Filter) (r : Row) : Prop :=
  (∀ ids ∈ f.tenantIds, r.tenantId ∈ ids) ∧ (∀ id ∈ f.deviceId, r.deviceId = id) ∧
    (∀ id ∈ f.collectorId, r.collectorId = id) ∧ (∀ id ∈ f.appId, r.appId = id) ∧
    (∀ state ∈ f.state, r.state = state) ∧ (∀ ts ∈ f.fromTs, ts ≤ r.executedAt) ∧
    ∀ ts ∈ f.toTs, r.executedAt ≤ ts
  deriving Decidable

def Filter.Passes (f : Filter) (r : Row) : Prop := ∀ roles ∈ f.roles, r.role.getD "" ∈ roles
  deriving Decidable

def newestFirst (rows : List Row) : List Row :=
  rows.mergeSort fun r r' => r'.executedAt ≤ r.executedAt

def Content.matching (db : Content) (f : Filter) (t : HistoryTable) : List Row :=
  newestFirst ((db.rows t).filter f.Matches)

/-- `query_history`. -/
def Content.queryHistory (db : Content) (f : Filter) (limit offset : ℕ) (t : HistoryTable) :
    List Row :=
  ((db.matching f t).drop offset).take limit

/-- `_VALID_ROLES`. -/
def validRoles : List String := ["availability", "latency", "interface", ""]

/-- The roles of a filter are valid, or nothing is read. -/
def Filter.Accepted (f : Filter) : Prop :=
  f.tenantIds = some [] ∨ ∀ roles ∈ f.roles, ∀ role ∈ roles, role ∈ validRoles
  deriving Decidable

/-- `list_results`, or none for roles that are not valid. -/
def listResults (db : Content) (f : Filter) (limit offset : ℕ) : Option (List Row) :=
  if f.tenantIds = some [] then some []
  else if f.Accepted then
    let allRows := (f.tables.flatMap (db.queryHistory f limit offset)).filter f.Passes
    some ((newestFirst allRows).take limit)
  else none

/-- All rows that match, newest first. -/
def history (db : Content) (f : Filter) : List Row :=
  newestFirst ((f.tables.flatMap (db.matching f)).filter f.Passes)

/-- **The pages partition the history**: put together they are every row once, newest first, and
after a page that is short nothing comes. -/
def Partitions (db : Content) (f : Filter) (limit : ℕ) : Prop :=
  ∃ pages : ℕ → List Row, (∀ p, listResults db f limit (p * limit) = some (pages p)) ∧
    (∃ n, ∀ m ≥ n, (range m).flatMap pages = history db f) ∧
    ∀ p, (pages p).length < limit → ∀ q > p, pages q = []

/-- The condition: the roles are valid, and every row is on the same page among those of its table
that match as in the history. -/
def SamePage (db : Content) (f : Filter) (limit : ℕ) : Prop :=
  f.Accepted ∧ ∀ t ∈ f.tables, ∀ i r, (db.matching f t)[i]? = some r → f.Passes r →
    ∃ j, (history db f)[j]? = some r ∧ j / limit = i / limit

/-! ### Sorting -/

variable {db : Content} {f : Filter}

theorem pairwise_newestFirst (rows : List Row) :
    (newestFirst rows).Pairwise fun r r' => r'.executedAt ≤ r.executedAt := by
  have h := @List.pairwise_mergeSort Row (fun r r' => decide (r'.executedAt ≤ r.executedAt))
    (fun a b c hab hbc => decide_eq_true ((of_decide_eq_true hbc).trans (of_decide_eq_true hab)))
    (fun a b => by simpa using le_total _ _) rows
  exact h.imp fun hr => of_decide_eq_true hr

variable {rows : List Row} {r : Row}

theorem mem_newestFirst : r ∈ newestFirst rows ↔ r ∈ rows := (mergeSort_perm rows _).mem_iff

theorem nodup_newestFirst (h : rows.Nodup) : (newestFirst rows).Nodup :=
  (mergeSort_perm rows _).nodup_iff.2 h

theorem newestFirst_eq {rows' : List Row} (hmem : ∀ r, r ∈ rows ↔ r ∈ rows')
    (hnodup : rows.Nodup) (hnodup' : rows'.Nodup)
    (hapart : ∀ r ∈ rows, ∀ r' ∈ rows, r.executedAt = r'.executedAt → r = r')
    (hsorted : rows'.Pairwise fun r r' => r'.executedAt ≤ r.executedAt) :
    newestFirst rows = rows' := by
  refine Perm.eq_of_pairwise (fun a b ha hb hle hle' => ?_) (pairwise_newestFirst rows) hsorted
    ((mergeSort_perm rows _).trans ((perm_ext_iff_of_nodup hnodup hnodup').2 hmem))
  exact hapart a (mem_newestFirst.1 ha) b ((hmem b).2 hb) (le_antisymm hle' hle)

/-! ### Rows of a request -/

theorem mem_matching {t : HistoryTable} : r ∈ db.matching f t ↔ r ∈ db.rows t ∧ f.Matches r := by
  rw [Content.matching, mem_newestFirst, mem_filter, decide_eq_true_eq]

theorem nodup_matching (t : HistoryTable) : (db.matching f t).Nodup :=
  nodup_newestFirst ((Nodup.of_map _ (db.distinct t)).filter _)

variable {g : HistoryTable → List Row}

theorem mem_merged :
    r ∈ (f.tables.flatMap g).filter f.Passes ↔ (∃ t ∈ f.tables, r ∈ g t) ∧ f.Passes r := by
  rw [mem_filter, mem_flatMap, decide_eq_true_eq]

theorem eq_of_executedAt {t t' : HistoryTable} {r' : Row} (hr : r ∈ db.matching f t)
    (hr' : r' ∈ db.matching f t') (h : r.executedAt = r'.executedAt) : t = t' ∧ r = r' := by
  have hmem := (mem_matching.1 hr).1
  have hmem' := (mem_matching.1 hr').1
  by_cases ht : t = t'
  · subst ht
    exact ⟨rfl, inj_on_of_nodup_map (db.distinct t) hmem hmem' h⟩
  · exact absurd h (db.apart t t' ht r hmem r' hmem')

theorem nodup_merged (hsub : ∀ t, (g t).Sublist (db.matching f t)) :
    ((f.tables.flatMap g).filter f.Passes).Nodup := by
  refine Nodup.filter _ (nodup_flatMap.2 ⟨fun t _ => (nodup_matching t).sublist (hsub t), ?_⟩)
  have htables : f.tables.Nodup := by
    unfold Filter.tables
    cases f.table <;> simp
  refine htables.imp fun {t t'} hne r hr hr' => hne ?_
  exact (eq_of_executedAt ((hsub t).subset hr) ((hsub t').subset hr') rfl).1

theorem newestFirst_merged (hsub : ∀ t, (g t).Sublist (db.matching f t))
    (hmem : ∀ r, r ∈ (f.tables.flatMap g).filter f.Passes ↔ r ∈ rows) (hnodup : rows.Nodup)
    (hsorted : rows.Pairwise fun r r' => r'.executedAt ≤ r.executedAt) :
    newestFirst ((f.tables.flatMap g).filter f.Passes) = rows := by
  refine newestFirst_eq hmem (nodup_merged hsub) hnodup (fun r hr r' hr' h => ?_) hsorted
  obtain ⟨⟨t, -, hr⟩, -⟩ := mem_merged.1 hr
  obtain ⟨⟨t', -, hr'⟩, -⟩ := mem_merged.1 hr'
  exact (eq_of_executedAt ((hsub t).subset hr) ((hsub t').subset hr') h).2

theorem mem_history : r ∈ history db f ↔ (∃ t ∈ f.tables, r ∈ db.matching f t) ∧ f.Passes r :=
  mem_newestFirst.trans mem_merged

/-! ### Pages -/

theorem sublist_page {α : Type} (k : ℕ) (l : List α) (p : ℕ) : (page k l p).Sublist l :=
  (take_sublist _ _).trans (drop_sublist _ _)

/-- The rows on a page of a table. -/
def rowsOn (db : Content) (f : Filter) (limit p : ℕ) : List Row :=
  (f.tables.flatMap fun t => page limit (db.matching f t) p).filter f.Passes

theorem listResults_page (h : f.Accepted) (limit p : ℕ) : listResults db f limit (p * limit) =
      some (if f.tenantIds = some [] then [] else (newestFirst (rowsOn db f limit p)).take limit) :=
      by
  rw [listResults]
  split_ifs
  · rfl
  · rfl

theorem matching_of_tenants (h : f.tenantIds = some []) (t : HistoryTable) :
    db.matching f t = [] := by
  refine eq_nil_iff_forall_not_mem.2 fun r hr => ?_
  exact absurd ((mem_matching.1 hr).2.1 [] h) not_mem_nil

variable {limit : ℕ}

theorem mem_rowsOn (hpos : 0 < limit) {p : ℕ} :
    r ∈ rowsOn db f limit p ↔ (∃ t ∈ f.tables, ∃ i, i / limit = p ∧
      (db.matching f t)[i]? = some r) ∧ f.Passes r := by
  rw [rowsOn, mem_merged]
  simp only [mem_page hpos]

theorem samePage_of_partitions (hpos : 0 < limit) (h : Partitions db f limit) :
    SamePage db f limit := by
  obtain ⟨pages, hpages, hwhole, hshort⟩ := h
  have haccepted : f.Accepted := by
    by_contra hno
    have hno' : f.tenantIds ≠ some [] := fun h => hno (.inl h)
    have h := hpages 0
    rw [listResults, if_neg hno', if_neg hno] at h
    cases h
  refine ⟨haccepted, fun t ht i r hi hpasses => ?_⟩
  have hpage : ∀ p, pages p =
      if f.tenantIds = some [] then [] else (newestFirst (rowsOn db f limit p)).take limit :=
    fun p => Option.some.inj ((hpages p).symm.trans (listResults_page haccepted limit p))
  have hle : ∀ p, (pages p).length ≤ limit := fun p => by
    rw [hpage]
    split_ifs
    · exact Nat.zero_le _
    · exact length_take_le _ _
  have hmem := mem_history.2 ⟨⟨t, ht, mem_of_getElem? hi⟩, hpasses⟩
  obtain ⟨j, hj⟩ := mem_iff_getElem?.1 hmem
  refine ⟨j, hj, ?_⟩
  -- the page of the history with the row is made of rows on that page of their tables
  have hrow : r ∈ pages (j / limit) := by
    rw [eq_page hle hshort hwhole]
    exact (mem_page hpos).2 ⟨j, rfl, hj⟩
  rw [hpage] at hrow
  split_ifs at hrow
  · exact absurd hrow not_mem_nil
  · obtain ⟨⟨t', -, i', hdiv, hi'⟩, -⟩ := (mem_rowsOn hpos).1 (mem_newestFirst.1 (mem_of_mem_take hrow))
    obtain ⟨rfl, -⟩ := eq_of_executedAt (mem_of_getElem? hi) (mem_of_getElem? hi') rfl
    obtain ⟨hlt, hget⟩ := List.getElem?_eq_some_iff.1 hi
    obtain ⟨hlt', hget'⟩ := List.getElem?_eq_some_iff.1 hi'
    rw [(nodup_matching t).getElem_inj_iff.1 (hget.trans hget'.symm), hdiv]

theorem partitions_of_samePage (hpos : 0 < limit) (h : SamePage db f limit) :
    Partitions db f limit := by
  obtain ⟨haccepted, hsame⟩ := h
  refine ⟨page limit (history db f), fun p => ?_, ⟨(history db f).length, fun m hm => ?_⟩,
    fun p hlt q hq => ?_⟩
  · rw [listResults_page haccepted]
    refine congrArg some ?_
    split_ifs with htenants
    · have hnone : history db f = [] := eq_nil_iff_forall_not_mem.2 fun r hr => by
        obtain ⟨⟨t, -, hr⟩, -⟩ := mem_history.1 hr
        rw [matching_of_tenants htenants] at hr
        exact not_mem_nil hr
      rw [hnone, page, drop_nil, take_nil]
    · have hrows : newestFirst (rowsOn db f limit p) = page limit (history db f) p := by
        refine newestFirst_merged (fun t => sublist_page _ _ _) (fun r => ?_)
          ((nodup_newestFirst (nodup_merged fun t => Sublist.refl _)).sublist (sublist_page _ _ _))
          ((pairwise_newestFirst _).sublist (sublist_page _ _ _))
        refine (mem_rowsOn hpos).trans ⟨?_, fun hr => ?_⟩
        · rintro ⟨⟨t, ht, i, rfl, hi⟩, hpasses⟩
          obtain ⟨j, hj, hdiv⟩ := hsame t ht i r hi hpasses
          exact (mem_page hpos).2 ⟨j, hdiv, hj⟩
        · obtain ⟨j, rfl, hj⟩ := (mem_page hpos).1 hr
          obtain ⟨⟨t, ht, hr⟩, hpasses⟩ := mem_history.1 (mem_of_getElem? hj)
          obtain ⟨i, hi⟩ := mem_iff_getElem?.1 hr
          obtain ⟨j', hj', hdiv⟩ := hsame t ht i r hi hpasses
          obtain ⟨hlt, hget⟩ := List.getElem?_eq_some_iff.1 hj
          obtain ⟨hlt', hget'⟩ := List.getElem?_eq_some_iff.1 hj'
          have hnodup : (history db f).Nodup :=
            nodup_newestFirst (nodup_merged fun t => Sublist.refl _)
          rw [hnodup.getElem_inj_iff.1 (hget.trans hget'.symm)]
          exact ⟨⟨t, ht, i, hdiv.symm, hi⟩, hpasses⟩
      rw [hrows, take_of_length_le length_page_le]
  · rw [flatMap_page, take_of_length_le (hm.trans (Nat.le_mul_of_pos_right m hpos))]
  · have hlen : (history db f).length ≤ q * limit := by
      rw [page, length_take, length_drop] at hlt
      have hnext : (p + 1) * limit ≤ q * limit := Nat.mul_le_mul_right limit hq
      rw [Nat.succ_mul] at hnext
      omega
    rw [page, drop_of_length_le hlen, take_nil]

/-- **The pages of the history partition it iff every row has its page in its table**. -/
theorem partitionsHistory_iff (db : Content) (f : Filter) (limit : ℕ+) :
    Partitions db f limit ↔ SamePage db f limit :=
  ⟨samePage_of_partitions limit.pos, partitions_of_samePage limit.pos⟩

def rowAt (executedAt : Timestamp) : Row := ⟨executedAt, "t", "d", "c", "a", 0, none⟩

/-- Three rows of one table and an older one of another. -/
def fourRows : Content where
  rows t := match t with
    | .availabilityLatency => [rowAt 4, rowAt 3, rowAt 2]
    | .performance => [rowAt 1]
    | _ => []
  distinct t := by cases t <;> decide
  apart t t' hne := by cases t <;> cases t' <;> first | exact absurd rfl hne | decide

/-- Of four rows the last one is cut from the first page of three, and on no other. -/
theorem not_partitions : ¬Partitions fourRows {} 3 := by
  intro h
  have hrow : (fourRows.matching {} .performance)[0]? = some (rowAt 1) := by decide +kernel
  obtain ⟨j, hj, hdiv⟩ := (samePage_of_partitions (by decide) h).2 .performance (by decide) 0 _ hrow
    (fun _ h => by cases h)
  have hhistory : history fourRows {} = [rowAt 4, rowAt 3, rowAt 2, rowAt 1] := by
    refine newestFirst_merged (fun t => Sublist.refl _) (fun r => ?_) (by decide) (by decide)
    rw [mem_merged]
    simp [Filter.tables, mem_matching, fourRows, Filter.Matches, Filter.Passes, or_assoc]
  have hfirst : ∀ i < 3, [rowAt 4, rowAt 3, rowAt 2, rowAt 1][i]? ≠ some (rowAt 1) := by decide
  exact hfirst j (by omega) (hhistory ▸ hj)

end MonCTL.Results
