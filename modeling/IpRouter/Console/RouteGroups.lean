import IpRouter.Console.RootDomain
import IpRouter.Theory.Grouping

/-!
# The groups of the console

The console shows the targets of `GET /routes` under the root domains of their
keys, and those of a key that has no root under the key (`renderRoutes`). What a
group says of itself is fixed by the key that comes first; `GroupOf` says it
without an order, which is right because keys that are put together have the same
root: a key without a root is no root of another key.

`routes_partition` is the result: the groups are a partition of the targets, and
another order of the source groups gives the same one.
-/

namespace IpRouter.Console

open Theory

universe u

/-- A group of `GET /routes`: a key, and its targets. -/
structure SourceGroup (T : Type u) where
  /-- `key`. -/
  key : Units
  /-- `ips`. -/
  ips : List T

/-- A target, with the key it came from. -/
structure Tagged (T : Type u) where
  /-- The target. -/
  target : T
  /-- `sourceKey`. -/
  sourceKey : Units
  deriving DecidableEq

/-- The targets of a source group. -/
def SourceGroup.tagged {T : Type u} (s : SourceGroup T) : List (Tagged T) :=
  s.ips.map fun target => ⟨target, s.key⟩

/-- A group of the console. -/
structure RouteGroup (T : Type u) where
  /-- `key`. -/
  key : Units
  /-- `rootDomain`. -/
  rootDomain : Option Units
  /-- `configured`. -/
  configured : Bool
  /-- `sourceKeys`. -/
  sourceKeys : List Units
  /-- `targets`. -/
  targets : List (Tagged T)
  deriving DecidableEq

variable {T : Type u}

/-- A source group goes into its group. -/
def RouteGroup.take (g : RouteGroup T) (s : SourceGroup T) : RouteGroup T :=
  { g with
    sourceKeys := if s.key ∈ g.sourceKeys then g.sourceKeys else g.sourceKeys ++ [s.key]
    targets := g.targets ++ s.tagged }

/-- `domainCovered`. -/
def domainCovered (domain : Units) (configured : List Units) : Bool :=
  configured.any fun resolverDomain => domain = resolverDomain ||
    (46 :: resolverDomain).isSuffixOf domain

variable [Browser]

/-- `configuredResolverDomains`, of the domains that are shown. -/
def configuredResolverDomains (items : List Units) : List Units := items.map Browser.toLowerCase

/-- The key of the group a key belongs to. A root is not empty, so it counts as true. -/
def groupKey (key : Units) : Units := (rootDomainForKey key).getD key

/-- A group, as the first of its keys makes it. -/
def newGroup (configured : List Units) (s : SourceGroup T) : RouteGroup T where
  key := groupKey s.key
  rootDomain := rootDomainForKey s.key
  configured := (rootDomainForKey s.key).any fun root => domainCovered root configured
  sourceKeys := []
  targets := []

/-- `groupedRoutes`: the groups, also those without a target. -/
def groupedRoutes (items : List Units) (groups : List (SourceGroup T)) :
    InsMap Units (RouteGroup T) :=
  collect (fun s => groupKey s.key) (newGroup (configuredResolverDomains items))
    RouteGroup.take groups

/-- `renderRoutes`, as far as it fills `routePager.items`. -/
def renderRoutes (items : List Units) (groups : List (SourceGroup T)) : List (RouteGroup T) :=
  (groupedRoutes items groups).values.filter fun g => !g.targets.isEmpty

/-! ### Keys of one group -/

/-- A key without a root is in no group with another one that has a root. -/
theorem rootDomainForKey_eq_of_groupKey (hlower : Browser.Documented) {k k' : Units}
    (h : groupKey k = groupKey k') :
    rootDomainForKey k = rootDomainForKey k' := by
  unfold groupKey at h
  cases hk : rootDomainForKey k with
  | none =>
    cases hk' : rootDomainForKey k' with
    | none => rfl
    | some r' =>
      rw [hk, hk', Option.getD_none, Option.getD_some] at h
      rw [h, rootDomainForKey_root hlower hk'] at hk
      cases hk
  | some r =>
    cases hk' : rootDomainForKey k' with
    | none =>
      rw [hk, hk', Option.getD_none, Option.getD_some] at h
      rw [← h, rootDomainForKey_root hlower hk] at hk'
      cases hk'
    | some r' =>
      rw [hk, hk', Option.getD_some, Option.getD_some] at h
      rw [h]

/-! ### One group -/

/-- **The group of these source groups**, whatever their order. -/
structure GroupOf (items : List Units) (ss : List (SourceGroup T)) (g : RouteGroup T) : Prop where
  /-- The keys belong to the group. -/
  key : ∀ s ∈ ss, groupKey s.key = g.key
  /-- Its root is the root of each. -/
  rootDomain : ∀ s ∈ ss, rootDomainForKey s.key = g.rootDomain
  /-- It is configured if its root is covered. -/
  configured : g.configured = g.rootDomain.any fun root =>
    domainCovered root (configuredResolverDomains items)
  /-- No key is named twice. -/
  nodup : g.sourceKeys.Nodup
  /-- The keys are named. -/
  mem_sourceKeys : ∀ k, k ∈ g.sourceKeys ↔ ∃ s ∈ ss, s.key = k
  /-- The targets are theirs. -/
  targets : g.targets = ss.flatMap SourceGroup.tagged

namespace GroupOf

variable {items : List Units} {ss : List (SourceGroup T)} {g : RouteGroup T}

theorem empty (s : SourceGroup T) :
    GroupOf items [] (newGroup (configuredResolverDomains items) s) where
  key := by simp
  rootDomain := by simp
  configured := rfl
  nodup := List.nodup_nil
  mem_sourceKeys := by simp [newGroup]
  targets := rfl

/-- One source group more. -/
theorem take (h : GroupOf items ss g) {s : SourceGroup T} (hkey : groupKey s.key = g.key)
    (hroot : rootDomainForKey s.key = g.rootDomain) : GroupOf items (ss ++ [s]) (g.take s) where
  key := by simpa [or_imp, forall_and] using ⟨h.key, hkey⟩
  rootDomain := by simpa [or_imp, forall_and] using ⟨h.rootDomain, hroot⟩
  configured := h.configured
  nodup := by
    unfold RouteGroup.take
    simp only
    split_ifs with hmem
    · exact h.nodup
    · rw [List.nodup_append]
      refine ⟨h.nodup, List.nodup_singleton _, fun a ha b hb hab => hmem ?_⟩
      obtain rfl : b = s.key := List.mem_singleton.mp hb
      exact hab ▸ ha
  mem_sourceKeys := by
    intro k
    unfold RouteGroup.take
    simp only [List.mem_append, List.mem_singleton, or_and_right, exists_or, exists_eq_left,
      ← h.mem_sourceKeys k]
    split_ifs with hmem
    · exact ⟨Or.inl, fun hk => hk.elim id fun hk => hk ▸ hmem⟩
    · rw [List.mem_append, List.mem_singleton, eq_comm]
  targets := by
    rw [List.flatMap_append, ← h.targets, List.flatMap_singleton]
    rfl

/-- The source groups of one class, one after the other. -/
theorem foldl (h : GroupOf items ss g) {ss' : List (SourceGroup T)}
    (hkey : ∀ s ∈ ss', groupKey s.key = g.key ∧ rootDomainForKey s.key = g.rootDomain) :
    GroupOf items (ss ++ ss') (ss'.foldl RouteGroup.take g) := by
  induction ss' generalizing ss g with
  | nil => simpa using h
  | cons s ss' ih =>
    obtain ⟨hgroup, hroot⟩ := hkey s List.mem_cons_self
    rw [List.append_cons]
    exact ih (h.take hgroup hroot) fun s' hs' => hkey s' (List.mem_cons_of_mem s hs')

end GroupOf

/-! ### All of the groups -/

section Groups

variable {items : List Units} {groups groups' : List (SourceGroup T)}

/-- The source groups of a group. -/
abbrev sources (groups : List (SourceGroup T)) (k : Units) : List (SourceGroup T) :=
  fiber (fun s => groupKey s.key) groups k

theorem groupKey_of_mem_sources {k : Units} {s : SourceGroup T} (h : s ∈ sources groups k) :
    groupKey s.key = k := by
  simpa using (List.mem_filter.mp h).2

/-- **What an entry of the map is.** -/
theorem groupOf_of_mem (hlower : Browser.Documented) {k : Units} {g : RouteGroup T}
    (h : (k, g) ∈ (groupedRoutes items groups).entries) : g.key = k ∧ sources groups k ≠ [] ∧
    GroupOf items (sources groups k) g := by
  obtain ⟨s, rest, hsources, rfl⟩ := (collects_collect groups k g).mp h
  have hkey : ∀ s' ∈ s :: rest, groupKey s'.key = k := fun s' hs' =>
    groupKey_of_mem_sources (by rw [sources, hsources]; exact hs')
  have hgroup : GroupOf items (sources groups k)
      ((s :: rest).foldl RouteGroup.take (newGroup (configuredResolverDomains items) s)) := by
    rw [sources, hsources, ← List.nil_append (s :: rest)]
    refine (GroupOf.empty s).foldl fun s' hs' => ?_
    have hsame : groupKey s'.key = groupKey s.key :=
      (hkey s' hs').trans (hkey s List.mem_cons_self).symm
    exact ⟨hsame, rootDomainForKey_eq_of_groupKey hlower hsame⟩
  have hs : s ∈ sources groups k := by rw [sources, hsources]; exact List.mem_cons_self
  refine ⟨?_, List.ne_nil_of_mem hs, hgroup⟩
  rw [← hgroup.key s hs, hkey s List.mem_cons_self]

/-- Keys are not repeated. -/
theorem nodup_keys (hlower : Browser.Documented) :
    ((groupedRoutes items groups).values.map RouteGroup.key).Nodup := by
  have hkeys : (groupedRoutes items groups).values.map RouteGroup.key =
      (groupedRoutes items groups).entries.map Prod.fst := by
    rw [InsMap.values, List.map_map]
    exact List.map_congr_left fun p hp => (groupOf_of_mem hlower hp).1
  rw [hkeys]
  exact (groupedRoutes items groups).nodup

theorem mem_renderRoutes_iff {g : RouteGroup T} :
    g ∈ renderRoutes items groups ↔ (∃ k, (k, g) ∈ (groupedRoutes items groups).entries) ∧
      g.targets ≠ [] := by
  simp [renderRoutes, InsMap.values, List.mem_filter]

omit [Browser] in
/-- Groups without a target add nothing. -/
theorem flatMap_targets (gs : List (RouteGroup T)) :
    (gs.filter fun g => !g.targets.isEmpty).flatMap RouteGroup.targets =
      gs.flatMap RouteGroup.targets := by
  induction gs with
  | nil => rfl
  | cons g gs ih =>
    cases hg : g.targets with
    | nil => rw [List.filter_cons_of_neg (by simp [hg]), ih, List.flatMap_cons, hg, List.nil_append]
    | cons t ts =>
      rw [List.filter_cons_of_pos (by simp [hg]), List.flatMap_cons, List.flatMap_cons, ih]

/-- The targets of the groups are the targets of the source groups. -/
theorem targets_perm (hlower : Browser.Documented) :
    List.Perm ((renderRoutes items groups).flatMap RouteGroup.targets)
      (groups.flatMap SourceGroup.tagged) := by
  have hsources : (renderRoutes items groups).flatMap RouteGroup.targets =
      (((groupedRoutes items groups).entries.map Prod.fst).flatMap (sources groups)).flatMap
          SourceGroup.tagged := by
    rw [renderRoutes, flatMap_targets, InsMap.values, List.flatMap_map, List.flatMap_map,
      List.flatMap_assoc]
    exact List.flatMap_congr fun p hp => (groupOf_of_mem hlower hp).2.2.targets
  rw [hsources]
  refine (flatMap_fibers_perm (groupedRoutes items groups).nodup fun s hs => ?_).flatMap_right _
  exact has_collect_iff.mpr ⟨s, hs, rfl⟩

/-- Two groups that differ in the order of what they hold. -/
structure SameGroup (g g' : RouteGroup T) : Prop where
  /-- The key is the same. -/
  key : g.key = g'.key
  /-- The root is the same. -/
  rootDomain : g.rootDomain = g'.rootDomain
  /-- So is the flag. -/
  configured : g.configured = g'.configured
  /-- The keys are the same, in some order. -/
  sourceKeys : List.Perm g.sourceKeys g'.sourceKeys
  /-- And so are the targets. -/
  targets : List.Perm g.targets g'.targets

omit [Browser] in
theorem SameGroup.isEmpty_eq {g g' : RouteGroup T} (h : SameGroup g g') :
    g.targets.isEmpty = g'.targets.isEmpty := by
  rw [Bool.eq_iff_iff, List.isEmpty_iff, List.isEmpty_iff]
  exact ⟨fun hg => (hg ▸ h.targets).nil_eq.symm, fun hg => (hg ▸ h.targets).eq_nil⟩

/-- The groups of one class, from two orders. -/
theorem GroupOf.sameGroup {ss ss' : List (SourceGroup T)} {g g' : RouteGroup T}
    (h : GroupOf items ss g) (h' : GroupOf items ss' g') (hperm : List.Perm ss ss')
    (hne : ss ≠ []) : SameGroup g g' := by
  obtain ⟨s, rest, rfl⟩ := List.exists_cons_of_ne_nil hne
  have hs : s ∈ ss' := hperm.subset List.mem_cons_self
  have hroot : g.rootDomain = g'.rootDomain :=
    (h.rootDomain s List.mem_cons_self).symm.trans (h'.rootDomain s hs)
  refine ⟨(h.key s List.mem_cons_self).symm.trans (h'.key s hs), hroot, ?_, ?_, ?_⟩
  · rw [h.configured, h'.configured, hroot]
  · refine (List.perm_ext_iff_of_nodup h.nodup h'.nodup).mpr fun k => ?_
    rw [h.mem_sourceKeys, h'.mem_sourceKeys]
    simp only [hperm.mem_iff]
  · rw [h.targets, h'.targets]
    exact hperm.flatMap_right _

/-- Another order of the source groups gives the same groups, in some order. -/
theorem renderRoutes_perm (hlower : Browser.Documented) (hperm : List.Perm groups groups') :
    ∃ shuffled, List.Perm shuffled (renderRoutes items groups') ∧
      List.Forall₂ SameGroup (renderRoutes items groups) shuffled := by
  have hsources : ∀ k, List.Perm (sources groups k) (sources groups' k) := fun k => hperm.filter _
  obtain ⟨all, hall, hsame⟩ : ∃ all, List.Perm all (groupedRoutes items groups').values ∧
      List.Forall₂ SameGroup (groupedRoutes items groups).values all := by
    refine exists_perm_forall₂ (fun k g hg => ?_) fun k hk => ?_
    · obtain ⟨-, hne, hgroup⟩ := groupOf_of_mem hlower hg
      obtain ⟨s, hs⟩ := List.exists_mem_of_ne_nil _ hne
      have hhas : (groupedRoutes items groups').Has k :=
        has_collect_iff.mpr ⟨s, hperm.mem_iff.mp (List.mem_filter.mp hs).1,
          groupKey_of_mem_sources hs⟩
      obtain ⟨g', hg'⟩ := InsMap.has_iff.mp hhas
      exact ⟨_, hg', hgroup.sameGroup (groupOf_of_mem hlower hg').2.2 (hsources k) hne⟩
    · obtain ⟨s, hs, hkey⟩ := has_collect_iff.mp hk
      exact has_collect_iff.mpr ⟨s, hperm.mem_iff.mpr hs, hkey⟩
  exact ⟨_, hall.filter _, List.rel_filter (fun g g' h => by simp [h.isEmpty_eq]) hsame⟩

/-- A group without a root has one key. -/
theorem GroupOf.sourceKeys_eq_singleton {ss : List (SourceGroup T)} {g : RouteGroup T}
    (h : GroupOf items ss g) (hne : ss ≠ []) (hnone : g.rootDomain = none) :
    g.sourceKeys = [g.key] := by
  have hall : ∀ k ∈ g.sourceKeys, k = g.key := by
    intro k hk
    obtain ⟨s, hs, rfl⟩ := (h.mem_sourceKeys k).mp hk
    have hkey := h.key s hs
    rwa [groupKey, h.rootDomain s hs, hnone, Option.getD_none] at hkey
  obtain ⟨s, hs⟩ := List.exists_mem_of_ne_nil _ hne
  have hmem : s.key ∈ g.sourceKeys := (h.mem_sourceKeys s.key).mpr ⟨s, hs, rfl⟩
  refine List.perm_singleton.mp
    ((List.perm_ext_iff_of_nodup h.nodup (List.nodup_singleton _)).mpr fun k => ?_)
  rw [List.mem_singleton]
  exact ⟨hall k, fun hk => hk ▸ hall _ hmem ▸ hmem⟩

/-- The target's key is one of the group's. -/
theorem GroupOf.sourceKey_mem {ss : List (SourceGroup T)} {g : RouteGroup T}
    (h : GroupOf items ss g) {t : Tagged T} (ht : t ∈ g.targets) : t.sourceKey ∈ g.sourceKeys := by
  rw [h.targets] at ht
  obtain ⟨s, hs, ht⟩ := List.mem_flatMap.mp ht
  obtain ⟨target, -, rfl⟩ := List.mem_map.mp ht
  exact (h.mem_sourceKeys _).mpr ⟨s, hs, rfl⟩

/-- **The groups of the console are a partition of the targets**, by the roots of their keys, and
the order of the source groups does not matter for it. -/
theorem routes_partition (hlower : Browser.Documented) (items : List Units)
    (groups : List (SourceGroup T)) :
    ((renderRoutes items groups).map RouteGroup.key).Nodup ∧
    List.Perm ((renderRoutes items groups).flatMap RouteGroup.targets)
      (groups.flatMap SourceGroup.tagged) ∧
    (∀ g ∈ renderRoutes items groups,
      (∀ k ∈ g.sourceKeys, rootDomainForKey k = g.rootDomain) ∧
      (g.rootDomain = none → ∃ k, g.sourceKeys = [k]) ∧
      ∀ t ∈ g.targets, t.sourceKey ∈ g.sourceKeys) ∧
    (∀ key r, rootDomainForKey key = some r → rootDomainForKey r = some r) ∧
    ∀ groups', List.Perm groups groups' →
      ∃ shuffled, List.Perm shuffled (renderRoutes items groups') ∧
        List.Forall₂ SameGroup (renderRoutes items groups) shuffled := by
  refine ⟨?_, targets_perm hlower, fun g hg => ?_, fun _ _ => rootDomainForKey_root hlower,
    fun _ => renderRoutes_perm hlower⟩
  · exact (nodup_keys hlower).sublist (List.filter_sublist.map _)
  · obtain ⟨⟨k, hk⟩, -⟩ := mem_renderRoutes_iff.mp hg
    obtain ⟨-, hne, hgroup⟩ := groupOf_of_mem hlower hk
    refine ⟨fun k hk => ?_, fun hnone => ⟨_, hgroup.sourceKeys_eq_singleton hne hnone⟩,
      fun t => hgroup.sourceKey_mem⟩
    obtain ⟨s, hs, rfl⟩ := (hgroup.mem_sourceKeys k).mp hk
    exact hgroup.rootDomain s hs

end Groups

section Sample

omit [Browser]

theorem asciiBrowser_documented : @Browser.Documented asciiBrowser := by
  intro s hs
  refine (List.map_congr_left fun u hu => ?_).trans (List.map_id s)
  have hsmall : ¬ (65 ≤ u && u ≤ 90) = true := by
    rw [Bool.and_eq_true, decide_eq_true_eq, decide_eq_true_eq, UInt16.le_iff_toNat_le,
      UInt16.le_iff_toNat_le]
    have hu := hs u hu
    rintro ⟨hlo, hhi⟩
    simp at hlo hhi
    omega
  exact if_neg hsmall

/-- Four keys, of which two have one root. -/
theorem routes_partition_sample :
    ∃ groups : List (SourceGroup Units),
      ((@renderRoutes Units asciiBrowser [] groups).map RouteGroup.key).Nodup ∧
      (@renderRoutes Units asciiBrowser [] groups).length = 3 ∧
      List.Perm ((@renderRoutes Units asciiBrowser [] groups).flatMap RouteGroup.targets)
        (groups.flatMap SourceGroup.tagged) := by
  let groups : List (SourceGroup Units) :=
    [⟨units (text "www.example.com"), [units (text "10.0.0.1")]⟩,
      ⟨units (text "office"), [units (text "10.0.0.2")]⟩,
      ⟨units (text "Example.COM."), [units (text "10.0.0.1")]⟩,
      ⟨units (text "a.example.co.uk"), [units (text "10.0.0.3")]⟩]
  obtain ⟨hkeys, htargets, -⟩ :=
    @routes_partition Units asciiBrowser asciiBrowser_documented [] groups
  exact ⟨groups, hkeys, by decide +kernel, htargets⟩

end Sample

end IpRouter.Console
