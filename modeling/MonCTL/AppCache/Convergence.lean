import MonCTL.AppCache.Replication

/-!
# Convergence of the App Cache

Every step that meets the condition keeps the invariant of the replication. When nothing is dirty
any more and every collector has caught up, central has for every key what was written last, and
so have the collectors.
-/

namespace MonCTL.AppCache

open List Option

section Steps

variable {d : Directory} {group : List String} {s : System} {n n' : CacheNode} {c : String}

/-! ### Keys -/

variable {allowed : Option (List Uuid)} {k : CacheKey} {k' : CentralKey}

theorem resolveKey_none (h : resolveKey d allowed k = .ok k') : resolveKey d none k = .ok k' := by
  rw [resolveKey] at h ⊢
  split at h
  · cases h
  · split at h
    · cases h
    · rw [if_neg (by simp)]
      exact h

theorem canonicalKey_eq_some :
    canonicalKey d k = some k' ↔ resolveKey d none k = .ok k' ∧ localKey d k' = some k := by
  rw [canonicalKey]
  split
  next k₁ hk₁ =>
    rw [hk₁]
    split
    next hlocal =>
      constructor
      · intro h
        cases h
        exact ⟨rfl, hlocal⟩
      · rintro ⟨h, -⟩
        cases h
        rfl
    next hlocal =>
      constructor
      · intro h
        cases h
      · rintro ⟨h, hlocal'⟩
        cases h
        exact absurd hlocal' hlocal
  next outcome hk₁ =>
    rw [hk₁]
    constructor
    · intro h
      cases h
    · rintro ⟨h, -⟩
      cases h

theorem canonicalKey_inj {k₁ k₂ : CacheKey} {k : CentralKey} (h₁ : canonicalKey d k₁ = some k)
    (h₂ : canonicalKey d k₂ = some k) : k₁ = k₂ :=
  Option.some_inj.1 ((canonicalKey_eq_some.1 h₁).2.symm.trans (canonicalKey_eq_some.1 h₂).2)

theorem canonicalKey_of_resolveKey {k₁ k₂ : CentralKey} (h₁ : canonicalKey d k = some k₁)
    (h₂ : resolveKey d allowed k = .ok k₂) : canonicalKey d k = some k₂ := by
  have h := (canonicalKey_eq_some.1 h₁).1.symm.trans (resolveKey_none h₂)
  cases h
  exact h₁

/-! ### Times -/

variable {now : Timestamp}

theorem CacheEntry.Expired.mono {e : CacheEntry} {now' : Timestamp} (h : e.Expired now)
    (hle : now ≤ now') : e.Expired now' := by
  obtain ⟨ttl, httl, hlt⟩ := h
  exact ⟨ttl, httl, hlt.trans_le hle⟩

variable {t : Timestamp}

theorem beyond_sinceOf {u : Timestamp} (h : u < t) : Beyond (sinceOf u) t := by
  intro v hv
  rw [sinceOf] at hv
  split at hv
  · cases hv
    exact h
  · cases hv

variable {central : CentralCache}

theorem NodeInv.beyond_reach {writes : List (CacheKey × CacheEntry)}
    (h : NodeInv d writes central n) (ht : Beyond (reach n) t) :
    Beyond (sinceOf n.lastPullAt) t := by
  rw [reach] at ht
  split at ht
  next since hphase => exact h.pulling hphase t ht
  next since page rest hphase =>
    obtain ⟨hne, -, hentries, hsince⟩ := h.page hphase
    refine hsince t fun u hu => ?_
    have hlast := (hentries _ (getLast_mem hne)).1 u hu
    refine hlast.trans (ht _ ?_)
    rw [getLast?_eq_some_getLast hne]
    rfl
  · exact ht

/-! ### One collector changes -/

theorem forall_update {P : String → CacheNode → Prop} {nodes : String → CacheNode}
    (hself : P c n) (hothers : ∀ c', c' ≠ c → P c' (nodes c')) :
    ∀ c', P c' (Function.update nodes c n c') := by
  intro c'
  by_cases hc : c' = c
  · subst hc
    rw [Function.update_self]
    exact hself
  · rw [Function.update_of_ne hc]
    exact hothers c' hc

/-- **A step of one collector** keeps the invariant if no row becomes older, what is no longer
dirty is at central, and nothing gets lost on the way. -/
theorem Inv.node_step (h : Inv d group s) (hnode : NodeInv d s.writes s.central n)
    (hdirty : ∀ {k t}, HasDirty (s.nodes c).cache k t → HasDirty n.cache k t ∨
      ∀ k', canonicalKey d k = some k' → HasCentral s.central k' t)
    (hdelivered : ∀ {k e k'}, s.central.get? k = some e → canonicalKey d k' = some k →
      (Delivered (s.nodes c) s.now k' e ∨ Beyond (reach (s.nodes c)) e.updatedAt) →
      Delivered n s.now k' e ∨ Beyond (reach n) e.updatedAt)
    {caughtUp : List String} (hothers : ∀ c' ∈ caughtUp, c' ≠ c → c' ∈ s.caughtUp)
    (hcaughtUp : c ∈ caughtUp → ∀ {k e k'}, s.central.get? k = some e →
      canonicalKey d k' = some k → Delivered n s.now k' e) :
    Inv d group { s.withNode c n with caughtUp } where
  canonical := h.canonical
  distinct := h.distinct
  central := h.central
  node := forall_update (P := fun _ n => NodeInv d s.writes s.central n) hnode fun c' _ => h.node c'
  covered := fun w hw k hk => by
    rcases h.covered w hw k hk with hcentral | ⟨c', hc', hw'⟩
    · exact .inl hcentral
    · by_cases hc : c' = c
      · subst hc
        refine (hdirty hw').elim (fun hdirty => .inr ⟨c', hc', ?_⟩) fun hcentral =>
          .inl (hcentral k hk)
        change HasDirty (Function.update s.nodes c' n c').cache _ _
        rw [Function.update_self]
        exact hdirty
      · refine .inr ⟨c', hc', ?_⟩
        change HasDirty (Function.update s.nodes c n c').cache _ _
        rw [Function.update_of_ne hc]
        exact hw'
  delivered := by
    refine forall_update (P := fun c' n => c' ∈ group → ∀ {k e k'}, s.central.get? k = some e →
      canonicalKey d k' = some k → Delivered n s.now k' e ∨ Beyond (reach n) e.updatedAt) ?_ ?_
    · intro hc k e k' he hk
      exact hdelivered he hk (h.delivered c hc he hk)
    · intro c' _ hc' k e k' he hk
      exact h.delivered c' hc' he hk
  caughtUp := by
    refine forall_update (P := fun c' n => c' ∈ group → c' ∈ caughtUp → ∀ {k e k'},
      s.central.get? k = some e → canonicalKey d k' = some k → Delivered n s.now k' e) ?_ ?_
    · intro _ hmem k e k' he hk
      exact hcaughtUp hmem he hk
    · intro c' hne hc' hmem k e k' he hk
      exact h.caughtUp c' hc' (hothers c' hmem hne) he hk

theorem Inv.phase_step (h : Inv d group s) (hc : c ∈ group)
    (hnode : NodeInv d s.writes s.central n) (hcache : n.cache = (s.nodes c).cache)
    (hrest : (s.nodes c).phase.rest = []) (hreach : reach n = reach (s.nodes c)) :
    Inv d group (s.withNode c n) := by
  have hdelivered : ∀ {k e}, Delivered (s.nodes c) s.now k e → Delivered n s.now k e := by
    intro k e hdelivered
    rw [Delivered, hrest] at hdelivered
    rw [Delivered, hcache]
    rcases hdelivered with hhas | hexpired | hmem
    · exact .inl hhas
    · exact .inr (.inl hexpired)
    · cases hmem
  refine h.node_step hnode (fun hdirty => .inl (by rwa [hcache]))
    (fun _ _ hold => ?_) (fun _ hmem _ => hmem) fun hmem _ _ _ he hk => hdelivered (h.caughtUp c hc hmem he hk)
  rw [hreach]
  exact hold.imp_left hdelivered

/-! ### Pushing -/

section Node

variable {writes : List (CacheKey × CacheEntry)} {central : CentralCache}

theorem NodeInv.of_phase (h : NodeInv d writes central n) (hcache : n'.cache = n.cache)
    (hphase : n'.phase = .idle ∨ n'.phase = .pulling (sinceOf n'.lastPullAt)) :
    NodeInv d writes central n' where
  rows := fun hrow => h.rows (hcache ▸ hrow)
  unwritten := .of_sent_nil (by rcases hphase with hphase | hphase <;> rw [hphase] <;> rfl)
  sent := fun e he => by rcases hphase with hphase | hphase <;> rw [hphase] at he <;> cases he
  marked := fun e he => by
    rw [toMark] at he
    rcases hphase with hphase | hphase <;> rw [hphase] at he <;> cases he
  page := fun happlying => by
    rcases hphase with hphase | hphase <;> cases hphase.symm.trans happlying
  pulling := fun hpulling => by
    rcases hphase with hphase | hphase
    · cases hphase.symm.trans hpulling
    · cases hphase.symm.trans hpulling
      exact fun t ht => ht

theorem NodeInv.readDirty (h : NodeInv d writes central n) {rank : CacheKey → ℕ}
    (hread : AppCache.readDirty rank n = some n') : NodeInv d writes central n' ∧
    n'.cache = n.cache ∧
      n.phase.rest = [] ∧ reach n' = reach n := by
  have hunwritten := Unwritten.readDirty hread
  rw [AppCache.readDirty] at hread
  split at hread
  next hphase =>
    have hreach : reach n = sinceOf n.lastPullAt := by rw [reach, hphase]
    rw [hreach, hphase]
    cases hread
    by_cases hempty : (appCacheGetDirty rank 500 n.cache).isEmpty = true
    · rw [if_pos hempty]
      exact ⟨h.of_phase rfl (.inr rfl), rfl, rfl, rfl⟩
    · rw [if_neg hempty] at hunwritten ⊢
      refine ⟨⟨h.rows, hunwritten, fun e he => ?_, fun _ he => (by cases he), fun hp => (by cases hp),
        fun hp => (by cases hp)⟩, rfl, rfl, rfl⟩
      obtain ⟨row, hrow, -, hentry⟩ := mem_appCacheGetDirty he
      have hwritten := h.rows hrow
      rw [hentry] at hwritten
      exact ⟨hwritten, row, hrow, by rw [← hentry]⟩
  · cases hread

theorem NodeInv.receivePush (h : NodeInv d writes central n) {outcomes : Option (List Outcome)}
    (hpush : AppCache.receivePush outcomes n = some n')
    (hstored : outcomes.isSome → ∀ e ∈ nextBatch n, ∀ k, canonicalKey d e.1 = some k →
      HasCentral central k e.2.updatedAt) :
    NodeInv d writes central n' ∧ n'.cache = n.cache ∧ n.phase.rest = [] ∧ reach n' = reach n := by
  have hunwritten := h.unwritten.receivePush hpush
  rw [AppCache.receivePush] at hpush
  split at hpush
  next batch hphase =>
    have hsent := h.sent
    have hreach : reach n = sinceOf n.lastPullAt := by rw [reach, hphase]
    rw [nextBatch, hphase] at hstored
    rw [hreach]
    rw [hphase] at hsent ⊢
    cases hpush
    cases outcomes with
    | none => exact ⟨h.of_phase rfl (.inr rfl), rfl, rfl, rfl⟩
    | some os =>
      refine ⟨⟨h.rows, hunwritten, fun e he => ?_, fun e he => ?_, fun hp => (by cases hp),
        fun hp => (by cases hp)⟩, rfl, rfl, rfl⟩
      · obtain ⟨sent, hmem, rfl⟩ := List.mem_map.1 he
        obtain ⟨pair, hpair, rfl⟩ := List.mem_map.1 hmem
        exact hsent pair.1 (of_mem_zip hpair).1
      · obtain ⟨pair, hpair, rfl⟩ := List.mem_map.1 he
        exact hstored rfl pair.1 (of_mem_zip hpair).1
  · cases hpush

theorem NodeInv.markNext (h : NodeInv d writes central n) (hmark : AppCache.markNext n = some n') :
    NodeInv d writes central n' ∧ n.phase.rest = [] ∧ n'.phase.rest = [] ∧
      reach n' = reach n ∧ ∀ {k t}, Has n.cache k t → Has n'.cache k t := by
  have hunwritten := h.unwritten.markNext hmark
  rw [AppCache.markNext] at hmark
  split at hmark
  next e₀ rest hphase =>
    have hsent := h.sent
    have hmarked := h.marked
    have hreach : reach n = sinceOf n.lastPullAt := by rw [reach, hphase]
    rw [hreach]
    rw [toMark, hphase] at hmarked
    rw [hphase] at hsent ⊢
    cases hmark
    refine ⟨⟨fun {k row} hrow => ?_, hunwritten, fun e he => ?_, fun e he =>
      hmarked e (mem_cons_of_mem _ he), fun hp => (by cases hp), fun hp => (by cases hp)⟩,
      rfl, rfl, rfl, has_markClean⟩
    · rw [get?_markClean] at hrow
      split at hrow
      · obtain ⟨row', hrow', rfl⟩ := map_eq_some_iff.1 hrow
        have hwritten := h.rows hrow'
        exact hwritten
      · exact h.rows hrow
    · exact (hsent e (mem_cons_of_mem _ he)).imp_right has_markClean
  next hphase =>
    have hreach : reach n = sinceOf n.lastPullAt := by rw [reach, hphase]
    rw [hreach, hphase]
    cases hmark
    exact ⟨h.of_phase rfl (.inr rfl), rfl, rfl, rfl, id⟩
  · cases hmark

theorem NodeInv.hasDirty_markNext (h : NodeInv d writes central n)
    (hmark : AppCache.markNext n = some n')
    (hkeeps : ∀ e ∈ nextMark n, (n.cache.get? e.key).isSome → e.key ∉ n.written)
    {t : Timestamp} (hdirty : HasDirty n.cache k t) : HasDirty n'.cache k t ∨
      ∀ k', canonicalKey d k = some k' → HasCentral central k' t := by
  rw [AppCache.markNext] at hmark
  split at hmark
  next e rest hphase =>
    have hmarked := h.marked
    have hunwritten := h.unwritten
    rw [toMark, hphase] at hmarked
    rw [Unwritten, hphase] at hunwritten
    have hnot := hkeeps e (by rw [nextMark, hphase]; rfl)
    cases hmark
    obtain ⟨row, hrow, hrowDirty, hle⟩ := hdirty
    by_cases hk : k = e.key
    · subst hk
      right
      intro k' hk'
      have hsame : row.toCacheEntry = e.entry := hunwritten (e.key, e.entry)
        (mem_cons_self ..) (hnot (isSome_iff_exists.2 ⟨row, hrow⟩)) row hrow
      obtain ⟨old, hold, hle'⟩ := hmarked e (mem_cons_self ..) k' hk'
      rw [← hsame] at hle'
      exact ⟨old, hold, hle.trans hle'⟩
    · left
      rw [HasDirty, get?_markClean, if_neg hk]
      exact ⟨row, hrow, hrowDirty, hle⟩
  · cases hmark
    exact .inl hdirty
  · cases hmark

/-! ### Pulling -/

variable {response : Option PullResponse}

theorem receivePull_eq_some
    (h : receivePull response n = some n') : ∃ since, n.phase = .pulling since ∧
      n'.cache = n.cache ∧ n'.lastPullAt = n.lastPullAt ∧
      ((n'.phase = .idle ∧ ∀ page ∈ response, page.entries = []) ∨
        ∃ page, response = some page ∧ page.entries ≠ [] ∧
          n'.phase = .applying since page page.entries) := by
  rw [receivePull] at h
  split at h
  next since hphase =>
    cases h
    refine ⟨since, hphase, rfl, rfl, ?_⟩
    cases response with
    | none => exact .inl ⟨rfl, by simp⟩
    | some page =>
      by_cases hempty : page.entries.isEmpty = true
      · refine .inl ⟨by simp only [hempty, if_true], fun page' hpage' => ?_⟩
        cases hpage'
        exact List.isEmpty_iff.1 hempty
      · refine .inr ⟨page, rfl, fun hnil => hempty (List.isEmpty_iff.2 hnil), ?_⟩
        simp only [hempty, Bool.false_eq_true, if_false]
  · cases h

theorem NodeInv.receivePull (h : NodeInv d writes central n)
    (hpull : AppCache.receivePull response n = some n')
    (hentries : ∀ page ∈ response, ∀ e ∈ page.entries,
      Beyond (nextSince n) e.2.updatedAt ∧ e ∈ writes) : NodeInv d writes central n' := by
  have hunwritten := Unwritten.receivePull hpull
  obtain ⟨since, hphase, hcache, hlast, ⟨hidle, -⟩ | ⟨page, rfl, hne, happlying⟩⟩ :=
    receivePull_eq_some hpull
  · exact h.of_phase hcache (.inl hidle)
  · have hsince : nextSince n = since := by rw [nextSince, hphase]
    rw [hsince] at hentries
    refine ⟨fun hrow => h.rows (hcache ▸ hrow), hunwritten, fun e he => ?_, fun e he => ?_,
      fun hp => ?_, fun hp => ?_⟩
    · rw [happlying] at he
      cases he
    · rw [toMark, happlying] at he
      cases he
    · cases happlying.symm.trans hp
      rw [hlast]
      exact ⟨hne, List.Subset.refl _, hentries page rfl, h.pulling hphase⟩
    · cases happlying.symm.trans hp

theorem NodeInv.applyNext (h : NodeInv d writes central n)
    (happly : AppCache.applyNext n = some n') : NodeInv d writes central n' ∧
      (∀ {k t}, Has n.cache k t → Has n'.cache k t) ∧
      (∀ {k t}, HasDirty n.cache k t → HasDirty n'.cache k t) ∧
      (∀ e ∈ n.phase.rest, Has n'.cache e.1 e.2.updatedAt ∨ e ∈ n'.phase.rest) ∧
      ∀ t, Beyond (reach n) t → Beyond (reach n') t := by
  have hunwritten := Unwritten.applyNext happly
  rw [AppCache.applyNext] at happly
  split at happly
  next since page e rest hphase =>
    obtain ⟨hne, hsub, hentries, hsince⟩ := h.page hphase
    have hreach : reach n = page.entries.getLast?.map fun e => e.2.updatedAt := by
      rw [reach, hphase]
    rw [hreach, hphase]
    cases happly
    refine ⟨⟨fun {k row} hrow => ?_, hunwritten, fun _ he => (by cases he),
      fun _ he => (by cases he), fun hp => ?_, fun hp => (by cases hp)⟩, has_upsertFromCentral,
      fun {k t} hdirty => ?_, fun e' he' => ?_, fun t ht => ht⟩
    · have hmem : e ∈ writes := (hentries e (hsub (mem_cons_self ..))).2
      rw [get?_upsertFromCentral] at hrow
      split at hrow
      next hk =>
        subst hk
        cases hold : n.cache.get? e.1 with
        | none =>
          rw [hold] at hrow
          cases hrow
          exact hmem
        | some old =>
          rw [hold] at hrow
          cases hrow
          change (e.1, newer old.toCacheEntry e.2) ∈ writes
          rcases newer_eq old.toCacheEntry e.2 with hnew | hnew
          · rw [hnew]
            exact hmem
          · rw [hnew]
            exact h.rows hold
      · exact h.rows hrow
    · cases hp
      exact ⟨hne, fun _ hmem => hsub (mem_cons_of_mem _ hmem), hentries, hsince⟩
    · obtain ⟨row, hrow, hrowDirty, hle⟩ := hdirty
      rw [HasDirty, get?_upsertFromCentral]
      split
      next hk =>
        subst hk
        rw [hrow]
        exact ⟨_, rfl, hrowDirty, hle.trans (le_newer_left ..)⟩
      · exact ⟨row, hrow, hrowDirty, hle⟩
    · rcases List.mem_cons.1 he' with rfl | he'
      · exact .inl (has_upsertFromCentral_self ..)
      · exact .inr he'
  next since page hphase =>
    obtain ⟨last, hlast, rfl⟩ := map_eq_some_iff.1 happly
    have hreach : reach n = some last.2.updatedAt := by
      rw [reach, hphase]
      dsimp only
      rw [hlast]
      rfl
    rw [hreach, hphase]
    have hbeyond : ∀ t, Beyond (some last.2.updatedAt) t → Beyond (sinceOf last.2.updatedAt) t :=
      fun t ht => beyond_sinceOf (ht _ rfl)
    refine ⟨?_, id, id, fun _ he => (by cases he), ?_⟩
    · cases page.hasMore with
      | true =>
        exact ⟨h.rows, .of_sent_nil rfl, fun _ he => (by cases he), fun _ he => (by cases he),
          fun hp => (by cases hp), fun hp => by cases hp; exact hbeyond⟩
      | false => exact h.of_phase rfl (.inl rfl)
    · cases page.hasMore with
      | true => exact fun t ht => ht
      | false => exact hbeyond
  · cases happly

theorem NodeInv.rest_beyond (h : NodeInv d writes central n) :
    ∀ e ∈ n.phase.rest, Beyond (sinceOf n.lastPullAt) e.2.updatedAt := by
  intro e he
  cases hphase : n.phase with
  | applying since page rest =>
    obtain ⟨-, hsub, hentries, hsince⟩ := h.page hphase
    rw [hphase] at he
    exact hsince _ (hentries e (hsub he)).1
  | idle | pushing | marking | pulling =>
    rw [hphase] at he
    cases he

end Node

/-! ### Steps -/

theorem Inv.write (h : Inv d group s) (hc : c ∈ group) {value : Json}
    {ttlSeconds : Option ℤ} (hk : (canonicalKey d k).isSome) (hnewer : ¬Has (s.nodes c).cache k now)
    (hdistinct : ∀ w ∈ s.writes, w.1 = k → w.2.updatedAt ≠ now) :
    Inv d group { s.withNode c ((s.nodes c).set k value ttlSeconds now) with
      writes := s.writes ++ [(k, ⟨value, ttlSeconds, now⟩)] } := by
  have hhas : ∀ {k' t}, Has (s.nodes c).cache k' t →
      Has ((s.nodes c).set k value ttlSeconds now).cache k' t := by
    rintro k' t ⟨row, hrow, hle⟩
    rw [Has, CacheNode.set, get?_appCacheSet]
    split
    next heq =>
      subst heq
      have hlt : row.updatedAt < now := not_le.1 fun hle' => hnewer ⟨row, hrow, hle'⟩
      exact ⟨_, rfl, hle.trans hlt.le⟩
    · exact ⟨row, hrow, hle⟩
  have hdirty : ∀ {k' t}, HasDirty (s.nodes c).cache k' t →
      HasDirty ((s.nodes c).set k value ttlSeconds now).cache k' t := by
    rintro k' t ⟨row, hrow, hrowDirty, hle⟩
    rw [HasDirty, CacheNode.set, get?_appCacheSet]
    split
    next heq =>
      subst heq
      have hlt : row.updatedAt < now := not_le.1 fun hle' => hnewer ⟨row, hrow, hle'⟩
      exact ⟨_, rfl, rfl, hle.trans hlt.le⟩
    · exact ⟨row, hrow, hrowDirty, hle⟩
  have hself : HasDirty ((s.nodes c).set k value ttlSeconds now).cache k now := by
    rw [HasDirty, CacheNode.set, get?_appCacheSet, if_pos rfl]
    exact ⟨_, rfl, rfl, le_refl _⟩
  have hdelivered : ∀ {k' e}, Delivered (s.nodes c) s.now k' e →
      Delivered ((s.nodes c).set k value ttlSeconds now) s.now k' e :=
    fun hold => hold.imp_left hhas
  have hnode : ∀ n, NodeInv d s.writes s.central n →
      NodeInv d (s.writes ++ [(k, ⟨value, ttlSeconds, now⟩)]) s.central n := fun n hn =>
    { hn with
      rows := fun hrow => mem_append_left _ (hn.rows hrow)
      sent := fun e he => (hn.sent e he).imp_left (mem_append_left _)
      page := fun hphase => by
        obtain ⟨hne, hsub, hentries, hsince⟩ := hn.page hphase
        exact ⟨hne, hsub, fun e he => (hentries e he).imp_right (mem_append_left _), hsince⟩ }
  have hn := hnode _ (h.node c)
  refine ⟨?_, ?_, ?_, ?_, ?_, ?_, ?_⟩
  · intro w hw
    rcases List.mem_append.1 hw with hw | hw
    · exact h.canonical w hw
    · rw [List.mem_singleton.1 hw]
      exact isSome_iff_exists.1 hk
  · intro w hw w' hw' hkey htime
    rcases List.mem_append.1 hw with hw | hw <;> rcases List.mem_append.1 hw' with hw' | hw'
    · exact h.distinct w hw w' hw' hkey htime
    · rw [List.mem_singleton.1 hw'] at hkey htime
      exact absurd htime (hdistinct w hw hkey)
    · rw [List.mem_singleton.1 hw] at hkey htime
      exact absurd htime.symm (hdistinct w' hw' hkey.symm)
    · rw [List.mem_singleton.1 hw, List.mem_singleton.1 hw']
  · intro k' e he
    obtain ⟨k₁, hk₁, hmem⟩ := h.central he
    exact ⟨k₁, hk₁, mem_append_left _ hmem⟩
  · refine forall_update (P := fun _ n => NodeInv d _ s.central n) ?_ fun c' _ => hnode _ (h.node c')
    refine ⟨fun {k' row} hrow => ?_, (h.node c).unwritten.set k value ttlSeconds now,
      fun e he => (hn.sent e he).imp_right hhas, hn.marked, hn.page, hn.pulling⟩
    rw [CacheNode.set, get?_appCacheSet] at hrow
    split at hrow
    next heq =>
      cases hrow
      subst heq
      exact mem_append_right _ (mem_singleton_self _)
    · exact hn.rows hrow
  · intro w hw k' hk'
    rcases List.mem_append.1 hw with hw | hw
    · refine (h.covered w hw k' hk').imp_right ?_
      rintro ⟨c', hc', hw'⟩
      refine ⟨c', hc', ?_⟩
      change HasDirty (Function.update s.nodes c _ c').cache _ _
      by_cases hne : c' = c
      · subst hne
        rw [Function.update_self]
        exact hdirty hw'
      · rw [Function.update_of_ne hne]
        exact hw'
    · rw [List.mem_singleton.1 hw]
      refine .inr ⟨c, hc, ?_⟩
      change HasDirty (Function.update s.nodes c _ c).cache _ _
      rw [Function.update_self]
      exact hself
  · refine forall_update (P := fun c' n => c' ∈ group → ∀ {k e k'}, s.central.get? k = some e →
      canonicalKey d k' = some k → Delivered n s.now k' e ∨ Beyond (reach n) e.updatedAt) ?_ ?_
    · intro _ k₁ e k' he hk'
      exact (h.delivered c hc he hk').imp_left hdelivered
    · intro c' _ hc' k₁ e k' he hk'
      exact h.delivered c' hc' he hk'
  · refine forall_update (P := fun c' n => c' ∈ group → c' ∈ s.caughtUp → ∀ {k e k'},
      s.central.get? k = some e → canonicalKey d k' = some k → Delivered n s.now k' e) ?_ ?_
    · intro _ hmem k₁ e k' he hk'
      exact hdelivered (h.caughtUp c hc hmem he hk')
    · intro c' _ hc' hmem k₁ e k' he hk'
      exact h.caughtUp c' hc' hmem he hk'

theorem Inv.pushed (h : Inv d group s)
    (hpushed : Pushed d allowed (nextBatch (s.nodes c)) s.central central)
    (htimely : ∀ e ∈ nextBatch (s.nodes c), ∀ k ∈ canonicalKey d e.1,
      HasCentral s.central k e.2.updatedAt ∨ Timely group s e.1 e.2.updatedAt) :
    Inv d group { s with central, caughtUp := [] } := by
  -- an entry that changes a row has been written, and is timely
  have hchanges : ∀ {k e}, central.get? k = some e → s.central.get? k = some e ∨
      ∃ k', canonicalKey d k' = some k ∧ (k', e) ∈ s.writes ∧ Timely group s k' e.updatedAt := by
    intro k e he
    refine (hpushed.changes he).imp_right ?_
    rintro ⟨⟨k', entry⟩, hmem, hkey, rfl, hold⟩
    have hsent : (k', entry) ∈ (s.nodes c).phase.sent := by
      rw [nextBatch] at hmem
      split at hmem
      next batch hphase =>
        rw [hphase]
        exact hmem
      · cases hmem
    have hwritten := ((h.node c).sent _ hsent).1
    obtain ⟨k₁, hk₁⟩ := h.canonical _ hwritten
    have hk := canonicalKey_of_resolveKey hk₁ hkey
    exact ⟨k', hk, hwritten, (htimely _ hmem k hk).resolve_left hold⟩
  refine ⟨h.canonical, h.distinct, fun {k e} he => ?_, fun c' => ?_, fun w hw k hk => ?_,
    fun c' hc' k e k' he hk => ?_, fun _ _ hmem => (by cases hmem)⟩
  · rcases hchanges he with hold | ⟨k', hk', hmem, -⟩
    · exact h.central hold
    · exact ⟨k', hk', hmem⟩
  · exact { h.node c' with
      marked := fun e he k hk => hpushed.keeps ((h.node c').marked e he k hk) }
  · exact (h.covered w hw k hk).imp_left hpushed.keeps
  · rcases hchanges he with hold | ⟨k₁, hk₁, -, htime⟩
    · exact h.delivered c' hc' hold hk
    · rw [canonicalKey_inj hk hk₁]
      exact (htime c' hc').imp_left .inl

theorem Inv.tick (h : Inv d group s) (hle : s.now ≤ now) : Inv d group { s with now } := by
  have hdelivered : ∀ {n k e}, Delivered n s.now k e → Delivered n now k e :=
    fun hold => hold.imp_right (Or.imp_left fun hexpired => hexpired.mono hle)
  exact ⟨h.canonical, h.distinct, h.central, h.node, h.covered,
    fun c' hc' _ _ _ he hk => (h.delivered c' hc' he hk).imp_left hdelivered,
    fun c' hc' hmem _ _ _ he hk => hdelivered (h.caughtUp c' hc' hmem he hk)⟩

variable {s' : System} {arrives : Bool}

theorem Inv.push (h : Inv d group s) (hc : c ∈ group)
    (hkeeps : KeepsUp d group s (c, .push allowed arrives))
    (hpush : s.push d c allowed arrives = some s') : Inv d group s' := by
  obtain ⟨haccepted, htimely⟩ := hkeeps
  rw [System.push] at hpush
  split at hpush
  · obtain ⟨n, hn, rfl⟩ := map_eq_some_iff.1 hpush
    obtain ⟨hnode, hcache, hrest, hreach⟩ := (h.node c).receivePush hn (by simp)
    exact h.phase_step hc hnode hcache hrest hreach
  next outcomes central hresult =>
    obtain ⟨n, hn, rfl⟩ := map_eq_some_iff.1 hpush
    have hpushed := (pushAppCache_spec hresult).2
    have hcentral := h.pushed hpushed htimely
    obtain ⟨hnode, hcache, hrest, hreach⟩ := (hcentral.node c).receivePush hn fun hsome e he k hk => by
      cases arrives with
      | false => cases hsome
      | true =>
        obtain ⟨k', hk'⟩ := exists_of_outcomeOf (haccepted rfl e he)
        have hsame := canonicalKey_of_resolveKey hk hk'
        cases hk.symm.trans hsame
        exact hpushed.stores e he k hk'
    exact hcentral.phase_step hc hnode hcache hrest hreach

theorem Inv.pull (h : Inv d group s) (hc : c ∈ group) {rank : CentralKey → ℕ} {limit : ℕ}
    (hle : s.now ≤ now) (hkeeps : KeepsUp d group s (c, .pull rank limit now arrives))
    (hpull : s.pull d c rank limit now arrives = some s') : Inv d group s' := by
  have htick := h.tick hle
  rw [System.pull] at hpull
  obtain ⟨n, hn, rfl⟩ := map_eq_some_iff.1 hpull
  have hnode := htick.node c
  obtain ⟨since, hphase, hcache, hlast, hcases⟩ := receivePull_eq_some hn
  have hsince : nextSince (s.nodes c) = since := by rw [nextSince, hphase]
  have hreach : reach (s.nodes c) = since := by rw [reach, hphase]
  have hrest : (s.nodes c).phase.rest = [] := by rw [hphase]; rfl
  -- the entries of the page are rows of central
  have hentries : ∀ e ∈ (s.page d c rank limit now).entries, Beyond since e.2.updatedAt ∧
      e ∈ s.writes := by
    intro e he
    obtain ⟨k, hk, hlocal⟩ := mem_pullAppCache he
    obtain ⟨hget, hbeyond⟩ := mem_selectUpdated.1 (mem_of_mem_take hk)
    obtain ⟨k', hk', hwritten⟩ := h.central hget
    cases hlocal.symm.trans (canonicalKey_eq_some.1 hk').2
    rw [hsince] at hbeyond
    exact ⟨hbeyond, hwritten⟩
  have hinv : NodeInv d s.writes s.central n := by
    refine hnode.receivePull hn fun page hpage e he => ?_
    cases arrives with
    | false => cases hpage
    | true =>
      cases hpage
      rw [hsince]
      exact hentries e he
  have hold : ∀ {k e}, Delivered (s.nodes c) now k e → Delivered n now k e := by
    intro k e hdelivered
    rw [Delivered, hrest] at hdelivered
    rw [Delivered, hcache]
    rcases hdelivered with hhas | hexpired | hmem
    · exact .inl hhas
    · exact .inr (.inl hexpired)
    · cases hmem
  -- a row that the page has to bring is in it, or comes after it
  have hpage : arrives = true → ∀ {k e k'}, s.central.get? k = some e →
      canonicalKey d k' = some k → Delivered (s.nodes c) now k' e ∨ Beyond since e.updatedAt →
      Delivered n now k' e ∨ (k, e) ∈ (selectUpdated rank since s.central).drop limit := by
    intro harrives k e k' he hk hbefore
    rcases hbefore with hbefore | hbefore
    · exact .inl (hold hbefore)
    · by_cases hexpired : e.Expired now
      · exact .inl (.inr (.inl hexpired))
      · have hcomplete : (k', e) ∈ (pullAppCache d rank since limit now s.central).entries ∨
            (k, e) ∈ (selectUpdated rank since s.central).drop limit :=
          pullAppCache_complete he hbefore (canonicalKey_eq_some.1 hk).2 hexpired
        refine hcomplete.imp_left fun hmem => .inr (.inr ?_)
        rcases hcases with ⟨-, hempty⟩ | ⟨page, hresponse, -, happlying⟩
        · rw [harrives] at hempty
          have hnil := hempty _ rfl
          rw [System.page, hsince] at hnil
          rw [hnil] at hmem
          cases hmem
        · rw [harrives] at hresponse
          cases hresponse
          rw [happlying, System.page, hsince]
          exact hmem
  have hdelivered : ∀ {k e k'}, s.central.get? k = some e → canonicalKey d k' = some k →
      (Delivered (s.nodes c) now k' e ∨ Beyond (reach (s.nodes c)) e.updatedAt) →
      Delivered n now k' e ∨ Beyond (reach n) e.updatedAt := by
    intro k e k' he hk hbefore
    rw [hreach] at hbefore
    rcases hcases with ⟨hidle, -⟩ | ⟨page, hresponse, hne, happlying⟩
    · -- the loop ends: the collector asks again
      have hreach' : reach n = sinceOf n.lastPullAt := by rw [reach, hidle]
      rw [hreach', hlast]
      exact hbefore.imp hold fun hbeyond => hnode.pulling hphase _ hbeyond
    · cases arrives with
      | false => cases hresponse
      | true =>
        cases hresponse
        refine (hpage rfl he hk hbefore).imp_right fun hdrop t ht => ?_
        rw [reach, happlying] at ht
        obtain ⟨last, hmem, rfl⟩ := map_eq_some_iff.1 ht
        have hlastMem := mem_of_getLast? hmem
        rw [← hsince] at hdrop
        have hlt := hkeeps last hmem (k, e) hdrop
        exact lt_of_le_of_ne (le_of_mem_drop hlastMem hdrop) hlt
  refine htick.node_step hinv (fun hdirty => ?_) hdelivered ?_ ?_
  · rw [hcache]
    exact .inl hdirty
  · intro c' hmem hne
    split at hmem
    · exact (List.mem_cons.1 hmem).resolve_left hne
    · exact hmem
  · intro hmem k e k' he hk
    by_cases hdone : (arrives && !(s.page d c rank limit now).hasMore) = true
    · obtain ⟨harrives, hmore⟩ := Bool.and_eq_true_iff.1 hdone
      have hbefore := htick.delivered c hc he hk
      change Delivered (s.nodes c) now k' e ∨ Beyond (reach (s.nodes c)) e.updatedAt at hbefore
      rw [hreach] at hbefore
      refine (hpage harrives he hk hbefore).resolve_right fun hdrop => ?_
      have htrue : (pullAppCache d rank since limit now s.central).hasMore = true :=
        pullAppCache_hasMore hdrop
      rw [System.page, hsince, htrue] at hmore
      cases hmore
    · rw [if_neg hdone] at hmem
      exact hold (htick.caughtUp c hc hmem he hk)

theorem Inv.apply (h : Inv d group s) (hc : c ∈ group) (happly : applyNext (s.nodes c) = some n) :
    Inv d group (s.withNode c n) := by
  obtain ⟨hnode, hhas, hdirty, hrest, hreach⟩ := (h.node c).applyNext happly
  have hdelivered : ∀ {k e}, Delivered (s.nodes c) s.now k e → Delivered n s.now k e := by
    intro k e hdelivered
    rcases hdelivered with hold | hexpired | hmem
    · exact .inl (hhas hold)
    · exact .inr (.inl hexpired)
    · exact (hrest (k, e) hmem).imp_right .inr
  exact h.node_step hnode (fun hold => .inl (hdirty hold))
    (fun _ _ hbefore => hbefore.imp hdelivered (hreach _)) (fun _ hmem _ => hmem)
    fun hmem _ _ _ he hk => hdelivered (h.caughtUp c hc hmem he hk)

theorem Inv.interrupt (h : Inv d group s) (hc : c ∈ group) (hcache : n.cache = (s.nodes c).cache)
    (hphase : n.phase = .idle) (hlast : ∀ t, Beyond (sinceOf (s.nodes c).lastPullAt) t →
      Beyond (sinceOf n.lastPullAt) t) : Inv d group (s.interrupt c n) := by
  have hreach : reach n = sinceOf n.lastPullAt := by rw [reach, hphase]
  refine h.node_step ((h.node c).of_phase hcache (.inl hphase)) (fun hdirty => ?_)
    (fun {k e k'} _ _ hbefore => ?_) ?_ ?_
  · rw [hcache]
    exact .inl hdirty
  · rw [hreach]
    rcases hbefore with (hhas | hexpired | hmem) | hbeyond
    · exact .inl (.inl (by rw [hcache]; exact hhas))
    · exact .inl (.inr (.inl hexpired))
    · exact .inr (hlast _ ((h.node c).rest_beyond (k', e) hmem))
    · exact .inr (hlast _ ((h.node c).beyond_reach hbeyond))
  · intro c' hmem _
    split at hmem
    · exact hmem
    · exact mem_of_mem_filter hmem
  · intro hmem k e k' he hk
    split at hmem
    next hrest =>
      rcases h.caughtUp c hc hmem he hk with hhas | hexpired | hmem
      · exact .inl (by rw [hcache]; exact hhas)
      · exact .inr (.inl hexpired)
      · rw [List.isEmpty_iff.1 hrest] at hmem
        cases hmem
    · have hne := (List.mem_filter.1 hmem).2
      simp at hne

/-- **The step**: a step that meets the condition keeps the invariant. -/
theorem step_inv {a : String × Action} (h : Inv d group s)
    (hkeeps : KeepsUp d group s a) (hstep : step d group s a = some s') : Inv d group s' := by
  obtain ⟨c, a⟩ := a
  rw [step] at hstep
  split at hstep
  next hc =>
    cases a with
    | write k value ttlSeconds now =>
      cases hstep
      obtain ⟨hk, hnewer, hdistinct⟩ := hkeeps
      exact h.write hc hk hnewer hdistinct
    | readDirty rank =>
      obtain ⟨n, hn, rfl⟩ := map_eq_some_iff.1 hstep
      obtain ⟨hnode, hcache, hrest, hreach⟩ := (h.node c).readDirty hn
      exact h.phase_step hc hnode hcache hrest hreach
    | push allowed arrives => exact h.push hc hkeeps hstep
    | mark =>
      obtain ⟨n, hn, rfl⟩ := map_eq_some_iff.1 hstep
      obtain ⟨hnode, hrest, -, hreach, hhas⟩ := (h.node c).markNext hn
      have hdelivered : ∀ {k e}, Delivered (s.nodes c) s.now k e → Delivered n s.now k e := by
        intro k e hold
        rw [Delivered, hrest] at hold
        rcases hold with hold | hexpired | hmem
        · exact .inl (hhas hold)
        · exact .inr (.inl hexpired)
        · cases hmem
      refine h.node_step hnode (fun hdirty => (h.node c).hasDirty_markNext hn hkeeps hdirty)
        (fun _ _ hbefore => ?_) (fun _ hmem _ => hmem)
        fun hmem _ _ _ he hk => hdelivered (h.caughtUp c hc hmem he hk)
      rw [hreach]
      exact hbefore.imp_left hdelivered
    | pull rank limit now arrives =>
      rw [act] at hstep
      split at hstep
      · cases hstep
      next hle => exact h.pull hc (not_lt.1 hle) hkeeps hstep
    | apply =>
      obtain ⟨n, hn, rfl⟩ := map_eq_some_iff.1 hstep
      exact h.apply hc hn
    | abort =>
      cases hstep
      exact h.interrupt hc rfl rfl fun _ ht => ht
    | restart =>
      cases hstep
      exact h.interrupt hc rfl rfl fun _ _ u hu => by cases hu
  · cases hstep

end Steps

/-! ### Runs -/

/-- **The run**: in a run whose steps all meet the condition, once nothing is dirty and every
collector has caught up, central and every collector have, for a key that is not expired, the
entry with the greatest time of those that have been written. -/
theorem converged {d : Directory} {group : List String} {s : System}
    (h : Run (step d group) (KeepsUp d group) {} s)
    (hclean : ∀ c ∈ group, Clean (s.nodes c)) (hcaughtUp : ∀ c ∈ group, CaughtUp s c)
    {k : CacheKey} {e : CacheEntry} (hwritten : (k, e) ∈ s.writes)
    (hgreatest : ∀ w ∈ s.writes, w.1 = k → w.2.updatedAt ≤ e.updatedAt) (hnow : ¬e.Expired s.now) :
    (∃ k', resolveKey d none k = .ok k' ∧ s.central.get? k' = some e) ∧
      ∀ c ∈ group, ∃ row, (s.nodes c).cache.get? k = some row ∧ row.toCacheEntry = e := by
  have hinv := h.invariant (I := Inv d group) (inv_start d group) step_inv
  obtain ⟨k', hk'⟩ := hinv.canonical (k, e) hwritten
  -- an entry of the key that is not older is the greatest one
  have heq : ∀ {e'}, (k, e') ∈ s.writes → e.updatedAt ≤ e'.updatedAt → e' = e := by
    intro e' hmem hle
    have htime := le_antisymm (hgreatest (k, e') hmem rfl) hle
    exact congrArg Prod.snd (hinv.distinct (k, e') hmem (k, e) hwritten rfl htime)
  have hcentral : s.central.get? k' = some e := by
    rcases hinv.covered (k, e) hwritten k' hk' with ⟨e', he', hle⟩ | ⟨c, hc, row, hrow, hdirty, -⟩
    · obtain ⟨k₁, hk₁, hmem⟩ := hinv.central he'
      rw [canonicalKey_inj hk₁ hk'] at hmem
      exact heq hmem hle ▸ he'
    · rw [hclean c hc (k, row) (Table.mem_rows.2 hrow)] at hdirty
      cases hdirty
  refine ⟨⟨k', (canonicalKey_eq_some.1 hk').1, hcentral⟩, fun c hc => ?_⟩
  obtain ⟨hmem, hrest⟩ := hcaughtUp c hc
  rcases hinv.caughtUp c hc hmem hcentral hk' with ⟨row, hrow, hle⟩ | hexpired | hmem
  · exact ⟨row, hrow, heq ((hinv.node c).rows hrow) hle⟩
  · exact absurd hexpired hnow
  · rw [hrest] at hmem
    cases hmem

/-! ### Two collectors -/

/-- An app and a device that central knows. -/
def arpDirectory : Directory where
  apps := [("arp", "11111111-1111-1111-1111-111111111111")]
  devices := ["22222222-2222-2222-2222-222222222222"]

/-- A key of that app and device. -/
def arpKey (cacheKey : String) : CacheKey :=
  ⟨"arp", "22222222-2222-2222-2222-222222222222", cacheKey⟩

/-- A collector pushes its one dirty entry. -/
def pushes (c : String) : List (String × Action) :=
  [(c, .readDirty fun _ => 0), (c, .push none true), (c, .mark), (c, .mark)]

/-- A collector pulls, and central has a number of entries for it. -/
def pulls (c : String) : ℕ → List (String × Action)
  | 0 => [(c, .pull (fun _ => 0) 1000 100 true)]
  | entries + 1 => pulls c 0 ++ List.replicate (entries + 2) (c, .apply)

/-- One collector writes and pushes, then both pull. -/
def replicates : List (String × Action) :=
  [("a", .write (arpKey "table") (.obj []) none 10)] ++ pushes "a" ++ pulls "a" 1 ++
    [("b", .readDirty fun _ => 0)] ++ pulls "b" 1

theorem converged_replicates :
    ∃ s, Run (step arpDirectory ["a", "b"]) (KeepsUp arpDirectory ["a", "b"]) {} s ∧
      ∃ w ∈ s.writes, w.1 = arpKey "table" ∧ ∀ c ∈ ["a", "b"],
        ∃ row, (s.nodes c).cache.get? w.1 = some row ∧ row.toCacheEntry = w.2 := by
  have hreplay : ∃ s ∈ replay (step arpDirectory ["a", "b"]) (KeepsUp arpDirectory ["a", "b"]) {}
      replicates, (∀ c ∈ ["a", "b"], Clean (s.nodes c)) ∧ (∀ c ∈ ["a", "b"], CaughtUp s c) ∧
      ∃ w ∈ s.writes, w.1 = arpKey "table" ∧
        (∀ w' ∈ s.writes, w'.1 = w.1 → w'.2.updatedAt ≤ w.2.updatedAt) ∧ ¬w.2.Expired s.now := by
    decide +kernel
  obtain ⟨s, hs, hclean, hcaughtUp, w, hw, hkey, hgreatest, hnow⟩ := hreplay
  have hrun : Run (step arpDirectory ["a", "b"]) (KeepsUp arpDirectory ["a", "b"]) {} s :=
    run_of_replay hs
  exact ⟨s, hrun, w, hw, hkey, (converged hrun hclean hcaughtUp hw hgreatest hnow).2⟩

/-- One collector writes early and pushes late: the other one has already pulled an entry from a
later time. -/
def arrivesLate : List (String × Action) :=
  [("b", .write (arpKey "early") (.obj []) none 5), ("a", .write (arpKey "late") (.obj []) none 10)]
    ++ pushes "a" ++ pulls "a" 1 ++ pushes "b" ++ pulls "b" 2 ++
    [("a", .readDirty fun _ => 0)] ++ pulls "a" 0

/-- Nothing is dirty and both collectors have caught up, but one of them lacks an entry. -/
theorem not_converged : ¬∀ s, Run (step arpDirectory ["a", "b"]) (fun _ _ => True) {} s →
      (∀ c ∈ ["a", "b"], Clean (s.nodes c)) → (∀ c ∈ ["a", "b"], CaughtUp s c) →
      ∀ w ∈ s.writes, (∀ w' ∈ s.writes, w'.1 = w.1 → w'.2.updatedAt ≤ w.2.updatedAt) →
        ¬w.2.Expired s.now →
        (∃ k', resolveKey arpDirectory none w.1 = .ok k' ∧ s.central.get? k' = some w.2) ∧
        ∀ c ∈ ["a", "b"], ∃ row, (s.nodes c).cache.get? w.1 = some row ∧
          row.toCacheEntry = w.2 := by
  intro h
  have hlate : ∃ s ∈ replay (step arpDirectory ["a", "b"]) (fun _ _ => True) {} arrivesLate,
      (∀ c ∈ ["a", "b"], Clean (s.nodes c)) ∧ (∀ c ∈ ["a", "b"], CaughtUp s c) ∧
      ∃ w ∈ s.writes, (∀ w' ∈ s.writes, w'.1 = w.1 → w'.2.updatedAt ≤ w.2.updatedAt) ∧
        ¬w.2.Expired s.now ∧ ((s.nodes "a").cache.get? w.1).isNone = true := by
    decide +kernel
  obtain ⟨s, hs, hclean, hcaughtUp, w, hw, hgreatest, hnow, hnone⟩ := hlate
  obtain ⟨row, hrow, -⟩ :=
    (h s (run_of_replay hs) hclean hcaughtUp w hw hgreatest hnow).2 "a" (by simp)
  rw [hrow] at hnone
  cases hnone

end MonCTL.AppCache
