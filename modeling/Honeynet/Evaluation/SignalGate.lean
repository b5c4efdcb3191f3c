import Honeynet.Controller.Signals

/-!
# The signal gate of the baselines

The baselines that the reveal policy is compared with have a signal gate of their own.

* `assetUnlockSignalsMatch`: the gate of the baselines.
* `baseline_stricter`: what it accepts, the controller accepts.
* `gates_agree_iff`: when the two answer the same.
* `family_match_missed`: a sub-technique of a listed technique tells them apart.
-/

namespace Honeynet.Evaluation

open Collections Controller

variable {F : Type} {asset : AssetDefinition} {request : ControllerTickRequest F} {d : Settings}

/-- The signals the baselines look at: those of the controller without the asset ids. -/
def observedSignals (request : ControllerTickRequest F) : List (String × List String) :=
  [("any_http_paths", request.profile.recentPublicHttpPaths),
    ("any_http_rules", request.profile.recentPublicHttpRules),
    ("any_http_indicators", request.profile.recentPublicHttpIndicators),
    ("any_internal_http_paths", request.profile.recentInternalHttpPaths),
    ("any_internal_http_rules", request.profile.recentInternalHttpRules),
    ("any_internal_http_indicators", request.profile.recentInternalHttpIndicators),
    ("any_techniques", request.profile.recentTechniques),
    ("any_tactics", request.profile.recentTactics)]

/-- The strings of a list value, and none of any other value. -/
def requiredSignals : Value → List String
  | .list items => Value.strings items
  | _ => []

/-- The gate of the baselines.  The items of a dictionary are visited by their keys. -/
def assetUnlockSignalsMatch (asset : AssetDefinition) (request : ControllerTickRequest F) : Bool :=
  let recent := !(request.profile.recentEvidenceIds.isEmpty &&
    request.profile.recentTechniques.isEmpty)
  match asset.defaultSettings.get "unlock_signals" with
  | .dict [] => recent
  | .dict unlockSignals =>
    (unlockSignals.map Prod.fst).any fun key =>
      let required := requiredSignals (Settings.get unlockSignals key)
      !required.isEmpty &&
        ((List.lookup key (observedSignals request)).getD []).any (· ∈ required)
  | _ => recent

/-! ### What the gates ask for -/

/-- One of the values listed under a key is among the observed ones. -/
def ListsObserved (d : Settings) (key : String) (observed : List String) : Prop :=
  ∃ o ∈ observed, o ∈ requiredSignals (Settings.get d key)

/-- A value listed under a key the baselines know is observed. -/
def ExactMatch (d : Settings) (request : ControllerTickRequest F) : Prop :=
  ∃ e ∈ observedSignals request, ListsObserved d e.1 e.2

/-- A technique listed for the asset is of the family of an observed one. -/
def FamilyMatch (d : Settings) (request : ControllerTickRequest F) : Prop :=
  ∃ o ∈ request.profile.recentTechniques,
    ∃ r ∈ requiredSignals (Settings.get d "any_techniques"), sameTechniqueFamily o r = true

/-- Something is listed under a key the controller knows. -/
def ListsSomething (d : Settings) (request : ControllerTickRequest F) : Prop :=
  ∃ e ∈ observedSignalSets request, ∃ items, Listed d e.1 items

/-- An asset with unlock signals either has an observed value listed under a key the baselines
know, or lists something, but neither an observed asset nor a technique of an observed family. -/
def GatesAgree (asset : AssetDefinition) (request : ControllerTickRequest F) : Prop :=
  ∀ d, asset.defaultSettings.get "unlock_signals" = .dict d → d ≠ [] →
    ExactMatch d request ∨ (ListsSomething d request ∧
      ¬ ListsObserved d "any_asset_ids" request.profile.recentAssetIds ∧
      ¬ FamilyMatch d request)

theorem mem_keys_of_required {key o : String} (h : o ∈ requiredSignals (Settings.get d key)) :
    key ∈ d.map Prod.fst := by
  by_contra hkey
  have hnone : List.lookup key d = none := by
    rw [← Option.not_isSome_iff_eq_none, lookup_isSome_iff]
    exact hkey
  rw [Settings.get, hnone] at h
  exact absurd h List.not_mem_nil

theorem listed_of_required {key o : String} (h : o ∈ requiredSignals (Settings.get d key)) :
    ∃ items, Listed d key items ∧ requiredSignals (Settings.get d key) = Value.strings items := by
  cases hvalue : Settings.get d key with
  | list items =>
    rw [hvalue] at h
    refine ⟨items, ⟨hvalue, ?_⟩, rfl⟩
    rintro rfl
    exact absurd h List.not_mem_nil
  | _ => exact absurd h (by simp [hvalue, requiredSignals])

/-- The keys of the baselines are keys of the controller, with the same signals. -/
theorem observedSignals_mem {e : String × List String} :
    e ∈ observedSignalSets request ↔
      e ∈ observedSignals request ∨ e = ("any_asset_ids", request.profile.recentAssetIds) := by
  simp only [observedSignalSets, observedSignals, List.mem_cons, List.not_mem_nil, or_false]
  tauto

theorem nodup_keys_observedSignals : ((observedSignals request).map Prod.fst).Nodup := by
  have hkeys : (observedSignals request).map Prod.fst =
      ["any_http_paths", "any_http_rules", "any_http_indicators", "any_internal_http_paths",
        "any_internal_http_rules", "any_internal_http_indicators", "any_techniques",
        "any_tactics"] := rfl
  rw [hkeys]
  decide

/-- **The baselines ask for an exact match.** -/
theorem assetUnlockSignalsMatch_dict (h : asset.defaultSettings.get "unlock_signals" = .dict d)
    (hne : d ≠ []) : assetUnlockSignalsMatch asset request = true ↔ ExactMatch d request := by
  obtain ⟨entry, d, rfl⟩ := List.exists_cons_of_ne_nil hne
  rw [assetUnlockSignalsMatch, h]
  simp only [List.any_eq_true, Bool.and_eq_true, Bool.not_eq_true', List.isEmpty_eq_false_iff,
    decide_eq_true_eq]
  constructor
  · rintro ⟨key, _, _, o, ho, hmem⟩
    cases hset : List.lookup key (observedSignals request) with
    | none => simp [hset] at ho
    | some set =>
      rw [hset] at ho
      obtain ⟨before, after, hsplit, _⟩ := List.lookup_eq_some_iff.mp hset
      have he : (key, set) ∈ observedSignals request := by simp [hsplit]
      exact ⟨(key, set), he, o, ho, hmem⟩
  · rintro ⟨e, he, o, ho, hmem⟩
    refine ⟨e.1, mem_keys_of_required hmem, List.ne_nil_of_mem hmem, o, ?_, hmem⟩
    rw [lookup_of_mem nodup_keys_observedSignals he]
    exact ho

theorem signalsMatch_iff {observed required : List String} {key : String} :
    signalsMatch observed required key = true ↔ (∃ o ∈ observed, o ∈ required) ∨
      (key = "any_techniques" ∧
        ∃ o ∈ observed, ∃ r ∈ required, sameTechniqueFamily o r = true) := by
  simp only [signalsMatch, Bool.or_eq_true, Bool.and_eq_true, List.any_eq_true,
    decide_eq_true_eq, beq_iff_eq]

theorem techniques_of_mem {e : String × List String} (he : e ∈ observedSignalSets request)
    (hkey : e.1 = "any_techniques") : e.2 = request.profile.recentTechniques := by
  simp only [observedSignalSets, List.mem_cons, List.not_mem_nil, or_false] at he
  rcases he with rfl | rfl | rfl | rfl | rfl | rfl | rfl | rfl | rfl
  all_goals first
    | rfl
    | exact absurd hkey (by simp)

/-- **The controller asks for an exact match or one of the family**, unless nothing is listed. -/
theorem matchesUnlockSignals_iff (h : asset.defaultSettings.get "unlock_signals" = .dict d)
    (hne : d ≠ []) : matchesUnlockSignals asset request = true ↔
      ¬ ListsSomething d request ∨ ExactMatch d request ∨
        ListsObserved d "any_asset_ids" request.profile.recentAssetIds ∨ FamilyMatch d request := by
  rw [matchesUnlockSignals_dict h hne]
  refine or_congr (by simp [ListsSomething]) ⟨?_, ?_⟩
  · rintro ⟨e, he, items, hlisted, hmatch⟩
    have hrequired : requiredSignals (Settings.get d e.1) = Value.strings items := by
      rw [hlisted.1, requiredSignals]
    rw [← hrequired] at hmatch
    rcases signalsMatch_iff.mp hmatch with hexact | ⟨hkey, hfamily⟩
    · rcases observedSignals_mem.mp he with hbaseline | rfl
      · exact Or.inl ⟨e, hbaseline, hexact⟩
      · exact Or.inr (Or.inl hexact)
    · rw [techniques_of_mem he hkey, hkey] at hfamily
      exact Or.inr (Or.inr hfamily)
  · rintro (⟨e, he, o, ho, hmem⟩ | ⟨o, ho, hmem⟩ | ⟨o, ho, r, hr, hfamily⟩)
    · obtain ⟨items, hlisted, hrequired⟩ := listed_of_required hmem
      refine ⟨e, observedSignals_mem.mpr (Or.inl he), items, hlisted, ?_⟩
      exact signalsMatch_iff.mpr (Or.inl ⟨o, ho, hrequired ▸ hmem⟩)
    · obtain ⟨items, hlisted, hrequired⟩ := listed_of_required hmem
      refine ⟨_, observedSignals_mem.mpr (Or.inr rfl), items, hlisted, ?_⟩
      exact signalsMatch_iff.mpr (Or.inl ⟨o, ho, hrequired ▸ hmem⟩)
    · obtain ⟨items, hlisted, hrequired⟩ := listed_of_required hr
      refine ⟨("any_techniques", request.profile.recentTechniques), by simp [observedSignalSets],
        items, hlisted, signalsMatch_iff.mpr (Or.inr ⟨rfl, o, ho, r, hrequired ▸ hr, hfamily⟩)⟩

/-! ### The two gates -/

/-- Without unlock signals the gates ask for the same. -/
theorem assetUnlockSignalsMatch_default
    (h : ∀ d, asset.defaultSettings.get "unlock_signals" = .dict d → d = []) :
    assetUnlockSignalsMatch asset request = matchesUnlockSignals asset request := by
  rw [assetUnlockSignalsMatch, matchesUnlockSignals]
  cases hsignals : asset.defaultSettings.get "unlock_signals" with
  | dict d =>
    obtain rfl := h d hsignals
    rfl
  | _ => rfl

/-- **What the baselines accept, the controller accepts.** -/
theorem baseline_stricter (h : assetUnlockSignalsMatch asset request = true) :
    matchesUnlockSignals asset request = true := by
  by_cases hdict : ∃ d, asset.defaultSettings.get "unlock_signals" = .dict d ∧ d ≠ []
  · obtain ⟨d, hd, hne⟩ := hdict
    exact (matchesUnlockSignals_iff hd hne).mpr
      (Or.inr (Or.inl ((assetUnlockSignalsMatch_dict hd hne).mp h)))
  · rw [← assetUnlockSignalsMatch_default fun d hd => by_contra fun hne => hdict ⟨d, hd, hne⟩]
    exact h

/-- **The gates answer the same** if and only if an observed value is listed as it is, or the asset
lists something and neither an observed asset nor a technique of an observed family. -/
theorem gates_agree_iff (asset : AssetDefinition) (request : ControllerTickRequest F) :
    (assetUnlockSignalsMatch asset request = true ↔ matchesUnlockSignals asset request = true) ↔
      GatesAgree asset request := by
  by_cases hdict : ∃ d, asset.defaultSettings.get "unlock_signals" = .dict d ∧ d ≠ []
  · obtain ⟨d, hd, hne⟩ := hdict
    have hagree : GatesAgree asset request ↔ ExactMatch d request ∨ (ListsSomething d request ∧
        ¬ ListsObserved d "any_asset_ids" request.profile.recentAssetIds ∧
        ¬ FamilyMatch d request) := by
      constructor
      · exact fun h => h d hd hne
      · intro h d' hd' _
        obtain rfl : d = d' := Value.dict.inj (hd.symm.trans hd')
        exact h
    rw [hagree, assetUnlockSignalsMatch_dict hd hne, matchesUnlockSignals_iff hd hne]
    tauto
  · have hdefault : ∀ d, asset.defaultSettings.get "unlock_signals" = .dict d → d = [] :=
      fun d hd => by_contra fun hne => hdict ⟨d, hd, hne⟩
    rw [assetUnlockSignalsMatch_default hdefault]
    exact iff_of_true Iff.rfl fun d hd hne => absurd (hdefault d hd) hne

/-- A sub-technique of a listed technique is enough for the controller, and not for the
baselines. -/
theorem family_match_missed : ¬ ∀ (asset : AssetDefinition) (request : ControllerTickRequest Rat),
    assetUnlockSignalsMatch asset request = true ↔ matchesUnlockSignals asset request = true := by
  intro h
  have hbaseline : assetUnlockSignalsMatch gitInternal
      { downloadRequest with profile := credentialProfile } = false := by decide
  have hcontroller : matchesUnlockSignals gitInternal
      { downloadRequest with profile := credentialProfile } = true := by decide
  rw [(h gitInternal { downloadRequest with profile := credentialProfile }).mpr hcontroller]
    at hbaseline
  exact absurd hbaseline (by simp)

end Honeynet.Evaluation
