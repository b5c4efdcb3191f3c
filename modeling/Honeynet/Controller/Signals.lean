import Honeynet.Controller.Structure

/-!
# The gates are monotone in what is observed

* `ProfileWithin`: every recent list of one profile is contained in that of another.
* `matchesUnlockSignals_dict`, `matchesUnlockSignals_default`: what the signal gate asks for.
* `eligibility_monotone`: what passes the gates under a profile passes them under a larger one, and
  no matched marker is lost.
-/

namespace Honeynet.Controller

open Collections

variable {F : Type} {ctl : ControllerService F} {request : ControllerTickRequest F}
  {asset : AssetDefinition} {p q : ProfileSnapshot F}

/-- Whatever one profile has seen recently, the other has seen too. -/
structure ProfileWithin (p q : ProfileSnapshot F) : Prop where
  recentTactics : p.recentTactics ⊆ q.recentTactics
  recentTechniques : p.recentTechniques ⊆ q.recentTechniques
  recentEvidenceIds : p.recentEvidenceIds ⊆ q.recentEvidenceIds
  recentPublicHttpPaths : p.recentPublicHttpPaths ⊆ q.recentPublicHttpPaths
  recentPublicHttpRules : p.recentPublicHttpRules ⊆ q.recentPublicHttpRules
  recentPublicHttpIndicators : p.recentPublicHttpIndicators ⊆ q.recentPublicHttpIndicators
  recentInternalHttpPaths : p.recentInternalHttpPaths ⊆ q.recentInternalHttpPaths
  recentInternalHttpRules : p.recentInternalHttpRules ⊆ q.recentInternalHttpRules
  recentInternalHttpIndicators : p.recentInternalHttpIndicators ⊆ q.recentInternalHttpIndicators
  recentAssetIds : p.recentAssetIds ⊆ q.recentAssetIds

/-! ### Observed signals -/

/-- The same keys, each with at least as much observed. -/
def SignalsWithin (xs ys : List (String × List String)) : Prop :=
  List.Forall₂ (fun x y => x.1 = y.1 ∧ x.2 ⊆ y.2) xs ys

theorem observedSignalSets_within (request : ControllerTickRequest F) (h : ProfileWithin p q) :
    SignalsWithin (observedSignalSets { request with profile := p })
      (observedSignalSets { request with profile := q }) :=
  .cons ⟨rfl, h.recentPublicHttpPaths⟩ <| .cons ⟨rfl, h.recentPublicHttpRules⟩ <|
    .cons ⟨rfl, h.recentPublicHttpIndicators⟩ <| .cons ⟨rfl, h.recentInternalHttpPaths⟩ <|
    .cons ⟨rfl, h.recentInternalHttpRules⟩ <| .cons ⟨rfl, h.recentInternalHttpIndicators⟩ <|
    .cons ⟨rfl, h.recentAssetIds⟩ <| .cons ⟨rfl, h.recentTechniques⟩ <|
    .cons ⟨rfl, h.recentTactics⟩ .nil

theorem SignalsWithin.keys_eq {xs ys : List (String × List String)} (h : SignalsWithin xs ys) :
    xs.map Prod.fst = ys.map Prod.fst := by
  induction h with
  | nil => rfl
  | cons hxy _ ih => rw [List.map_cons, List.map_cons, hxy.1, ih]

theorem SignalsWithin.lookup {xs ys : List (String × List String)} (h : SignalsWithin xs ys)
    {key : String} {set : List String} (hset : List.lookup key xs = some set) :
    ∃ set', List.lookup key ys = some set' ∧ set ⊆ set' := by
  induction h with
  | nil => exact absurd hset (by simp)
  | @cons x y xs ys hxy _ ih =>
    rw [lookup_cons_eq] at hset ⊢
    rw [← hxy.1]
    split_ifs at hset ⊢ with hkey
    · exact ⟨y.2, rfl, Option.some.inj hset ▸ hxy.2⟩
    · exact ih hset

/-- A match survives whatever else is observed. -/
theorem signalsMatch_mono {observed observed' required : List String} {key : String}
    (hsub : observed ⊆ observed') (h : signalsMatch observed required key = true) :
    signalsMatch observed' required key = true := by
  rw [signalsMatch, Bool.or_eq_true, Bool.and_eq_true, List.any_eq_true, List.any_eq_true] at h ⊢
  rcases h with ⟨o, ho, hmem⟩ | ⟨hkey, o, ho, hfamily⟩
  · exact Or.inl ⟨o, hsub ho, hmem⟩
  · exact Or.inr ⟨hkey, o, hsub ho, hfamily⟩

/-! ### The signal gate -/

/-- A key of the unlock signals with a list that is not empty. -/
def Listed (unlockSignals : Settings) (key : String) (items : List Value) : Prop :=
  Settings.get unlockSignals key = .list items ∧ items ≠ []

/-- **Without unlock signals** any evidence or technique will do. -/
theorem matchesUnlockSignals_default
    (h : ∀ d, asset.defaultSettings.get "unlock_signals" = .dict d → d = []) :
    matchesUnlockSignals asset request = true ↔
      request.profile.recentEvidenceIds ≠ [] ∨ request.profile.recentTechniques ≠ [] := by
  have hrecent : (!(request.profile.recentEvidenceIds.isEmpty &&
      request.profile.recentTechniques.isEmpty)) = true ↔
        request.profile.recentEvidenceIds ≠ [] ∨ request.profile.recentTechniques ≠ [] := by
    simp
  rw [← hrecent, matchesUnlockSignals]
  cases hsignals : asset.defaultSettings.get "unlock_signals" with
  | dict d =>
    obtain rfl := h d hsignals
    rfl
  | _ => rfl

/-- **With unlock signals** one listed key has to match, if any of the known keys is listed. -/
theorem matchesUnlockSignals_dict {d : Settings}
    (h : asset.defaultSettings.get "unlock_signals" = .dict d) (hne : d ≠ []) :
    matchesUnlockSignals asset request = true ↔
      (∀ e ∈ observedSignalSets request, ∀ items, ¬ Listed d e.1 items) ∨
        ∃ e ∈ observedSignalSets request, ∃ items, Listed d e.1 items ∧
          signalsMatch e.2 (Value.strings items) e.1 = true := by
  obtain ⟨entry, d, rfl⟩ := List.exists_cons_of_ne_nil hne
  rw [matchesUnlockSignals, h]
  simp only [Bool.or_eq_true, List.isEmpty_iff, List.filterMap_eq_nil_iff, List.any_eq_true,
    List.mem_filterMap]
  refine or_congr (forall₂_congr fun e _ => ?_) ⟨?_, ?_⟩
  · simp only [Listed]
    constructor
    · intro hnone items ⟨hlist, hitems⟩
      obtain ⟨v, vs, rfl⟩ := List.exists_cons_of_ne_nil hitems
      simp [hlist] at hnone
    · intro hnone
      split
      · rename_i v vs hlist
        exact absurd ⟨hlist, List.cons_ne_nil v vs⟩ (hnone _)
      · rfl
  · rintro ⟨c, ⟨e, he, hc⟩, hmatch⟩
    refine ⟨e, he, ?_⟩
    split at hc
    · rename_i v vs hlist
      obtain rfl := Option.some.inj hc
      exact ⟨_, ⟨hlist, List.cons_ne_nil v vs⟩, hmatch⟩
    · exact absurd hc (by simp)
  · rintro ⟨e, he, items, ⟨hlist, hitems⟩, hmatch⟩
    obtain ⟨v, vs, rfl⟩ := List.exists_cons_of_ne_nil hitems
    exact ⟨(e.1, e.2, Value.strings (v :: vs)), ⟨e, he, by simp [hlist]⟩, hmatch⟩

theorem ne_nil_of_subset {xs ys : List String} (h : xs ⊆ ys) (hxs : xs ≠ []) : ys ≠ [] := by
  rintro rfl
  exact hxs (List.subset_nil.mp h)

theorem matchesUnlockSignals_mono (h : ProfileWithin p q)
    (hp : matchesUnlockSignals asset { request with profile := p } = true) :
    matchesUnlockSignals asset { request with profile := q } = true := by
  by_cases hdict : ∃ d, asset.defaultSettings.get "unlock_signals" = .dict d ∧ d ≠ []
  · obtain ⟨d, hd, hne⟩ := hdict
    have hwithin := observedSignalSets_within request h
    rw [matchesUnlockSignals_dict hd hne] at hp ⊢
    rcases hp with hnone | ⟨e, he, items, hitems, hmatch⟩
    · -- which keys are listed does not depend on the profile
      refine Or.inl fun e he items hitems => ?_
      have hkey := List.mem_map_of_mem (f := Prod.fst) he
      rw [← hwithin.keys_eq, List.mem_map] at hkey
      obtain ⟨e', he', hkeys⟩ := hkey
      exact hnone e' he' items (hkeys ▸ hitems)
    · obtain ⟨e', he', hkey, hsub⟩ := mem_of_forall₂ hwithin he
      refine Or.inr ⟨e', he', items, hkey ▸ hitems, ?_⟩
      rw [← hkey]
      exact signalsMatch_mono hsub hmatch
  · have hdefault : ∀ d, asset.defaultSettings.get "unlock_signals" = .dict d → d = [] :=
      fun d hd => by_contra fun hne => hdict ⟨d, hd, hne⟩
    rw [matchesUnlockSignals_default hdefault] at hp ⊢
    exact hp.imp (ne_nil_of_subset h.recentEvidenceIds) (ne_nil_of_subset h.recentTechniques)

/-! ### Bootstrap and markers -/

theorem isBootstrapAsset_iff : isBootstrapAsset asset request = true ↔
    asset.assetId = "internal-portal" ∧ request.unlockedAssetIds = [] ∧
      (request.profile.recentEvidenceIds ≠ [] ∨ request.profile.recentTechniques ≠ [] ∨
        request.profile.recentTactics ≠ []) := by
  simp only [isBootstrapAsset, Bool.and_eq_true, beq_iff_eq, List.isEmpty_iff, Bool.not_eq_true',
    Bool.and_eq_false_iff, List.isEmpty_eq_false_iff, or_assoc, and_assoc]

theorem isBootstrapAsset_mono (h : ProfileWithin p q)
    (hp : isBootstrapAsset asset { request with profile := p } = true) :
    isBootstrapAsset asset { request with profile := q } = true := by
  rw [isBootstrapAsset_iff] at hp ⊢
  refine ⟨hp.1, hp.2.1, hp.2.2.imp (ne_nil_of_subset h.recentEvidenceIds) (Or.imp ?_ ?_)⟩
  · exact ne_nil_of_subset h.recentTechniques
  · exact ne_nil_of_subset h.recentTactics

theorem mem_markersOf {observed : List (String × List String)} {source : Settings}
    {marker : String} : marker ∈ markersOf observed source ↔
      ∃ e ∈ source, ∃ set items, List.lookup e.1 observed = some set ∧ e.2 = .list items ∧
        ∃ value ∈ Value.strings items, signalsMatch set [value] e.1 = true ∧
          marker = e.1 ++ ":" ++ value := by
  rw [markersOf, List.mem_flatMap]
  refine exists_congr fun ⟨key, values⟩ => and_congr_right fun _ => ?_
  dsimp only
  cases hset : List.lookup key observed with
  | none => simp
  | some set =>
    cases values with
    | list items =>
      simp only [List.mem_map, List.mem_filter, Option.some.injEq, Value.list.injEq,
        exists_and_left, exists_eq_left', and_assoc]
      exact exists_congr fun value => and_congr_right fun _ => and_congr_right fun _ => eq_comm
    | _ => simp

theorem markersOf_mono {observed observed' : List (String × List String)} {source : Settings}
    (h : SignalsWithin observed observed') :
    markersOf observed source ⊆ markersOf observed' source := by
  intro marker hmarker
  rw [mem_markersOf] at hmarker ⊢
  obtain ⟨e, he, set, items, hset, hitems, value, hvalue, hmatch, rfl⟩ := hmarker
  obtain ⟨set', hset', hsub⟩ := h.lookup hset
  exact ⟨e, he, set', items, hset', hitems, value, hvalue, signalsMatch_mono hsub hmatch, rfl⟩

theorem matchedDependencyMarkers_mono (h : ProfileWithin p q) :
    matchedDependencyMarkers asset { request with profile := p } ⊆
      matchedDependencyMarkers asset { request with profile := q } := by
  intro marker hmarker
  have hwithin := observedSignalSets_within request h
  simp only [matchedDependencyMarkers, mem_appendNew, List.mem_append, List.not_mem_nil,
    false_or] at hmarker ⊢
  exact hmarker.imp (fun hm => markersOf_mono hwithin hm) (fun hm => markersOf_mono hwithin hm)

/-! ### Eligibility -/

theorem eligible_mono {planned : List String} (h : ProfileWithin p q)
    (hp : Eligible ctl { request with profile := p } planned asset) :
    Eligible ctl { request with profile := q } planned asset :=
  { hp with
    signals := hp.signals.imp (isBootstrapAsset_mono h) (matchesUnlockSignals_mono h) }

/-- **More signals never close a gate**: an asset that is accepted under a profile is accepted
under one that has seen at least as much, and every marker it matched is matched still. -/
theorem eligibility_monotone (ctl : ControllerService F) (asset : AssetDefinition)
    (request : ControllerTickRequest F) (unlocked : List String) (p q : ProfileSnapshot F)
    (h : ProfileWithin p q) :
    ((eligibility ctl asset { request with profile := p } unlocked).1 = true →
      (eligibility ctl asset { request with profile := q } unlocked).1 = true) ∧
    matchedDependencyMarkers asset { request with profile := p } ⊆
      matchedDependencyMarkers asset { request with profile := q } := by
  refine ⟨fun hp => ?_, matchedDependencyMarkers_mono h⟩
  rw [eligibility_iff] at hp ⊢
  exact eligible_mono h hp

/-- A repository that waits for credential access. -/
def gitInternal : AssetDefinition where
  assetId := "git-internal"
  exposureType := .internal
  defaultSettings := [("unlock_signals", .dict [("any_techniques", .list [.str "T1552"])])]

/-- Credentials were found in files. -/
def credentialProfile : ProfileSnapshot Rat where
  recentTechniques := ["T1552.001"]

/-- The same beside a scan. -/
def busyProfile : ProfileSnapshot Rat where
  recentTechniques := ["T1046", "T1552.001"]

/-- The repository is accepted on a sub-technique, and still so beside a scan. -/
theorem gitInternal_still_accepted :
    (eligibility (sinkController (.list [])) gitInternal
      { downloadRequest with profile := busyProfile } ["malware-sink"]).1 = true ∧
    matchedDependencyMarkers gitInternal { downloadRequest with profile := credentialProfile } ⊆
      matchedDependencyMarkers gitInternal { downloadRequest with profile := busyProfile } := by
  have hmono := eligibility_monotone (sinkController (.list [])) gitInternal downloadRequest
    ["malware-sink"] credentialProfile busyProfile
    ⟨by decide, by decide, by decide, by decide, by decide, by decide, by decide, by decide,
      by decide, by decide⟩
  exact ⟨hmono.1 (by decide +kernel), hmono.2⟩

end Honeynet.Controller
