import Honeynet.Lib.StableSort
import Honeynet.Profiler.Mapping
import Mathlib.Algebra.GroupWithZero.Nat

/-!
# The profile of an attacker

A profile is computed from all the evidence of its attacker: what is recent in it, and how sure
the profiler is of each tactic and technique.

* `summarizeDimension`: a confidence for each tactic or technique.
* `rebuildProfile`: the profile of some evidence.
* `ingest`: an event stored as evidence, and the profile rebuilt.
* `mem_recentEvidenceIds`: evidence is named in its profile if fewer than five items come after it
  and it is not older than the window.
-/

namespace Honeynet.Profiler

open Collections

/-- A service with its catalog and its configuration; `confidence score` is
`round(1 - math.exp(-score), 4)`, where a score is a sum of weights. -/
structure ProfilerService (F : Type) (W : Type := ℕ) where
  py : ProfilerBuiltins
  catalog : AttackCatalog
  chainWindowSeconds : Int
  confidence : W → F

/-- One profile; its time is in microseconds. -/
structure ProfileSnapshot (F : Type) where
  attackerKey : String
  confByTactic : Dict String F := []
  confByTechnique : Dict String F := []
  recentTactics : List String := []
  recentTechniques : List String := []
  recentEvidenceIds : List String := []
  recentPublicHttpPaths : List String := []
  recentPublicHttpRules : List String := []
  recentPublicHttpIndicators : List String := []
  recentInternalHttpPaths : List String := []
  recentInternalHttpRules : List String := []
  recentInternalHttpIndicators : List String := []
  recentAssetIds : List String := []
  updatedAt : Int

/-! ### Confidence -/

/-- A value of a fingerprint. -/
inductive FingerprintValue
  | one (text : String)
  | many (texts : List String)
  deriving DecidableEq

/-- What makes two pieces of evidence count as one. -/
inductive Fingerprint
  | fields (parts : List (String × FingerprintValue))
  | reason (reason : String) (success : Bool)
  deriving DecidableEq

def fingerprintKeys : List String :=
  ["source", "asset_id", "event_type", "falco_rule", "proc_cmdline", "proc_name", "fd_name",
    "http_surface", "http_method", "http_path", "http_query_string", "http_user_agent",
    "http_rule_names", "http_indicators", "opencanary_service", "opencanary_logtype",
    "opencanary_command", "opencanary_commands", "opencanary_repo", "high_interaction_source",
    "high_interaction_service", "high_interaction_event_type", "username", "password_seen"]

section Rebuild

variable {F W : Type} (svc : ProfilerService F W)

def confidenceFingerprint (evidence : TechniqueEvidence W) : Fingerprint :=
  let parts := fingerprintKeys.filterMap fun key =>
    (evidence.sourceRef.get? key).map fun value =>
      match value with
      | .list items => (key, FingerprintValue.many (items.map svc.py.str))
      | value => (key, FingerprintValue.one (svc.py.str value))
  if parts = [] then .reason evidence.reason evidence.success else .fields parts

variable {svc} in
/-- Evidence that refers to the same under the keys of a fingerprint counts as one, if it refers to
anything there. -/
theorem confidenceFingerprint_congr {e e' : TechniqueEvidence W}
    (h : ∀ key ∈ fingerprintKeys, e.sourceRef.get? key = e'.sourceRef.get? key) {key : String}
    (hkey : key ∈ fingerprintKeys) (hsome : (e.sourceRef.get? key).isSome) :
    confidenceFingerprint svc e = confidenceFingerprint svc e' := by
  obtain ⟨value, hvalue⟩ := Option.isSome_iff_exists.mp hsome
  have hne {f : String → Value → String × FingerprintValue} :
      fingerprintKeys.filterMap (fun key => (e.sourceRef.get? key).map (f key)) ≠ [] :=
    List.ne_nil_of_mem (List.mem_filterMap.mpr ⟨key, hkey, by rw [hvalue]; rfl⟩)
  have hparts {f : String → Value → String × FingerprintValue} :
      fingerprintKeys.filterMap (fun key => (e.sourceRef.get? key).map (f key)) =
        fingerprintKeys.filterMap (fun key => (e'.sourceRef.get? key).map (f key)) :=
    List.filterMap_congr fun key hkey => by rw [h key hkey]
  rw [confidenceFingerprint, confidenceFingerprint, if_neg hne, hparts, if_neg (hparts ▸ hne)]

/-- The weights of some evidence, the greatest for each fingerprint. -/
def weightsByFingerprint [Zero W] [Max W] (items : List (TechniqueEvidence W)) :
    Dict Fingerprint W :=
  items.foldl (fun weights item =>
    let fingerprint := confidenceFingerprint svc item
    Dict.set weights fingerprint (max (Dict.getD weights fingerprint 0) item.weight)) []

/-- The evidence of each key, in the order of the keys' first occurrences. -/
def groupEvidence (key : TechniqueEvidence W → Option String)
    (evidences : List (TechniqueEvidence W)) : Dict String (List (TechniqueEvidence W)) :=
  evidences.foldl (fun grouped evidence =>
    match key evidence with
    | some k => Dict.set grouped k (Dict.getD grouped k [] ++ [evidence])
    | none => grouped) []

def summarizeDimension [Zero W] [Add W] [Max W] (key : TechniqueEvidence W → Option String)
    (evidences : List (TechniqueEvidence W)) : Dict String F :=
  (groupEvidence key evidences).map fun group =>
    (group.1, svc.confidence (((weightsByFingerprint svc group.2).map Prod.snd).foldl (· + ·) 0))

/-! ### What is recent -/

/-- The values some evidence refers to under a key. -/
def sourceRefValues (evidences : List (TechniqueEvidence W)) (sourceRefKey : String) :
    List String :=
  appendNew [] (evidences.flatMap fun evidence =>
    match evidence.sourceRef.get sourceRefKey with
    | .list items => Value.strings items
    | .str s => if s = "" then [] else [s]
    | _ => [])

/-- Those of the evidence from one source. -/
def httpValues (source : String) (evidences : List (TechniqueEvidence W))
    (sourceRefKey : String) : List String :=
  sourceRefValues
    (evidences.filter fun evidence => (evidence.sourceRef.get "source").str? == some source)
    sourceRefKey

def publicHttpValues : List (TechniqueEvidence W) → String → List String :=
  httpValues "public_http"

def internalHttpValues : List (TechniqueEvidence W) → String → List String :=
  httpValues "internal_http"

/-- Evidence in the order of time, and of storing where the times are equal. -/
def sortedEvidence (evidences : List (TechniqueEvidence W)) : List (TechniqueEvidence W) :=
  evidences.insertionSort fun a b => a.ts ≤ b.ts

/-- The evidence, in the order of time, that is at most the window older than the newest. -/
def recentEvidence (evidences : List (TechniqueEvidence W)) (latestTs : Int) :
    List (TechniqueEvidence W) :=
  (sortedEvidence evidences).filter fun evidence =>
    latestTs - svc.chainWindowSeconds * 1000000 ≤ evidence.ts

/-- `items[-n:]`. -/
def lastItems {α : Type*} (n : ℕ) (items : List α) : List α := items.drop (items.length - n)

/-- The profile of an attacker with this evidence. -/
def rebuildProfile [Zero W] [Add W] [Max W] (attackerKey : String)
    (evidences : List (TechniqueEvidence W)) (now : Int) : ProfileSnapshot F :=
  match (sortedEvidence evidences).getLast? with
  | none => { attackerKey, updatedAt := now }
  | some latest =>
    let recent := recentEvidence svc evidences latest.ts
    { attackerKey
      confByTactic := summarizeDimension svc TechniqueEvidence.group recent
      confByTechnique := summarizeDimension svc TechniqueEvidence.techId recent
      recentTactics := appendNew [] (recent.filterMap TechniqueEvidence.group)
      recentTechniques := appendNew [] (recent.filterMap TechniqueEvidence.techId)
      recentEvidenceIds := (lastItems 5 recent).map TechniqueEvidence.evidenceId
      recentPublicHttpPaths := publicHttpValues recent "http_path"
      recentPublicHttpRules := publicHttpValues recent "http_rule_names"
      recentPublicHttpIndicators := publicHttpValues recent "http_indicators"
      recentInternalHttpPaths := internalHttpValues recent "http_path"
      recentInternalHttpRules := internalHttpValues recent "http_rule_names"
      recentInternalHttpIndicators := internalHttpValues recent "http_indicators"
      recentAssetIds := sourceRefValues recent "asset_id"
      updatedAt := latest.ts }

end Rebuild

/-! ### Ingesting an event -/

section Ingest

variable {F : Type} (svc : ProfilerService F)

structure EvidenceIngestRequest where
  attackerKey : String
  bindingId : String
  event : FalcoEvent

/-- The evidence file and the profile file. -/
structure ProfilerStore (F : Type) where
  evidence : Dict String (List TechniqueEvidence) := []
  profiles : Dict String (ProfileSnapshot F) := []

/-- `add_many`. -/
def ProfilerStore.addMany (store : ProfilerStore F) (attackerKey : String)
    (evidences : List TechniqueEvidence) : ProfilerStore F :=
  { store with
    evidence :=
      Dict.set store.evidence attackerKey (store.evidence.getD attackerKey [] ++ evidences) }

/-- `list_by_attacker`. -/
def ProfilerStore.listByAttacker (store : ProfilerStore F) (attackerKey : String) :
    List TechniqueEvidence := store.evidence.getD attackerKey []

/-- `upsert`. -/
def ProfilerStore.upsert (store : ProfilerStore F) (snapshot : ProfileSnapshot F) :
    ProfilerStore F :=
  { store with profiles := Dict.set store.profiles snapshot.attackerKey snapshot }

/-- The evidence of a request, with ids from `ids`. -/
def requestEvidence (ids : ℕ → String) (request : EvidenceIngestRequest) :
    List TechniqueEvidence :=
  mapEvent svc.py svc.catalog ids request.attackerKey request.bindingId request.event

/-- An event stored as evidence, and the profile rebuilt. -/
def ingest (store : ProfilerStore F) (ids : ℕ → String) (request : EvidenceIngestRequest)
    (now : Int) : ProfilerStore F :=
  let stored := store.addMany request.attackerKey (requestEvidence svc ids request)
  stored.upsert (rebuildProfile svc request.attackerKey
    (stored.listByAttacker request.attackerKey) now)

/-! ### What is stored -/

variable {svc}

@[simp] theorem rebuildProfile_attackerKey (attackerKey : String)
    (evidences : List TechniqueEvidence) (now : Int) :
    (rebuildProfile svc attackerKey evidences now).attackerKey = attackerKey := by
  rw [rebuildProfile]
  split <;> rfl

theorem sortedEvidence_ne_nil {evidences : List TechniqueEvidence} (h : evidences ≠ []) :
    sortedEvidence evidences ≠ [] := by
  intro hnil
  have hlength := List.length_insertionSort (fun a b : TechniqueEvidence => a.ts ≤ b.ts) evidences
  rw [← sortedEvidence, hnil, List.length_nil] at hlength
  exact h (List.length_eq_zero_iff.mp hlength.symm)

/-- The clock is read for a profile without evidence only. -/
theorem rebuildProfile_now {evidences : List TechniqueEvidence} (h : evidences ≠ [])
    (attackerKey : String) (now now' : Int) :
    rebuildProfile svc attackerKey evidences now =
      rebuildProfile svc attackerKey evidences now' := by
  rw [rebuildProfile, rebuildProfile, List.getLast?_eq_getLast_of_ne_nil (sortedEvidence_ne_nil h)]

@[simp] theorem listByAttacker_addMany_self (store : ProfilerStore F) (attackerKey : String)
    (evidences : List TechniqueEvidence) :
    (store.addMany attackerKey evidences).listByAttacker attackerKey =
      store.listByAttacker attackerKey ++ evidences := by
  rw [ProfilerStore.listByAttacker, ProfilerStore.addMany, Dict.getD, lookup_set_self,
    Option.getD_some, ProfilerStore.listByAttacker]

theorem listByAttacker_addMany_of_ne (store : ProfilerStore F) {attackerKey other : String}
    (hne : other ≠ attackerKey) (evidences : List TechniqueEvidence) :
    (store.addMany attackerKey evidences).listByAttacker other = store.listByAttacker other := by
  rw [ProfilerStore.listByAttacker, ProfilerStore.addMany, Dict.getD, lookup_set_ne _ hne,
    ← Dict.getD, ProfilerStore.listByAttacker]

/-- Evidence is only ever appended. -/
theorem listByAttacker_prefix_addMany (store : ProfilerStore F) (attackerKey other : String)
    (evidences : List TechniqueEvidence) :
    store.listByAttacker other <+: (store.addMany attackerKey evidences).listByAttacker other := by
  by_cases h : other = attackerKey
  · rw [h, listByAttacker_addMany_self]
    exact List.prefix_append _ _
  · rw [listByAttacker_addMany_of_ne store h]

@[simp] theorem listByAttacker_upsert (store : ProfilerStore F) (snapshot : ProfileSnapshot F)
    (attackerKey : String) :
    (store.upsert snapshot).listByAttacker attackerKey = store.listByAttacker attackerKey := rfl

theorem listByAttacker_ingest_self (store : ProfilerStore F) (ids : ℕ → String)
    (request : EvidenceIngestRequest) (now : Int) :
    (ingest svc store ids request now).listByAttacker request.attackerKey =
      store.listByAttacker request.attackerKey ++ requestEvidence svc ids request := by
  rw [ingest, listByAttacker_upsert, listByAttacker_addMany_self]

variable (svc) in
theorem listByAttacker_ingest_of_ne (store : ProfilerStore F) (ids : ℕ → String)
    {request : EvidenceIngestRequest} {a : String} (hne : a ≠ request.attackerKey) (now : Int) :
    (ingest svc store ids request now).listByAttacker a = store.listByAttacker a := by
  rw [ingest, listByAttacker_upsert, listByAttacker_addMany_of_ne store hne]

variable (svc) in
theorem listByAttacker_prefix_ingest (store : ProfilerStore F) (ids : ℕ → String)
    (request : EvidenceIngestRequest) (now : Int) (a : String) :
    store.listByAttacker a <+: (ingest svc store ids request now).listByAttacker a :=
  listByAttacker_prefix_addMany store request.attackerKey a _

variable (svc) in
/-- An ingest leaves the profile of all the evidence. -/
theorem profiles_ingest (store : ProfilerStore F) (ids : ℕ → String)
    (request : EvidenceIngestRequest) (now : Int) (a : String) :
    (ingest svc store ids request now).profiles.get? a =
      if a = request.attackerKey then
        some (rebuildProfile svc a
          ((ingest svc store ids request now).listByAttacker request.attackerKey) now)
      else store.profiles.get? a := by
  have hset := lookup_set store.profiles (rebuildProfile svc request.attackerKey
      ((ingest svc store ids request now).listByAttacker request.attackerKey) now).attackerKey a
    (rebuildProfile svc request.attackerKey
      ((ingest svc store ids request now).listByAttacker request.attackerKey) now)
  refine hset.trans ?_
  rw [rebuildProfile_attackerKey]
  by_cases ha : a = request.attackerKey
  · rw [if_pos ha, if_pos ha, ha]
  · rw [if_neg ha, if_neg ha]

/-- The pieces of an event's evidence have the ids in order. -/
theorem map_evidenceId_requestEvidence (ids : ℕ → String) (request : EvidenceIngestRequest) :
    (requestEvidence svc ids request).map TechniqueEvidence.evidenceId =
      (List.range (requestEvidence svc ids request).length).map ids := by
  refine List.ext_getElem (by simp) fun i hi _ => ?_
  simp [requestEvidence, mapEvent]

/-! ### The recent evidence -/

/-- **Evidence is named in its profile if fewer than five items come after it and it is not older
than the window.** -/
theorem mem_recentEvidenceIds {before after : List TechniqueEvidence} {item : TechniqueEvidence}
    (hfew : before.countP (fun e => item.ts < e.ts) + after.countP (fun e => item.ts ≤ e.ts) < 5)
    (hrecent : ∀ e ∈ before ++ item :: after,
      e.ts - svc.chainWindowSeconds * 1000000 ≤ item.ts) (attackerKey : String) (now : Int) :
    item.evidenceId ∈
      (rebuildProfile svc attackerKey (before ++ item :: after) now).recentEvidenceIds := by
  have hne : sortedEvidence (before ++ item :: after) ≠ [] := sortedEvidence_ne_nil (by simp)
  rw [rebuildProfile, List.getLast?_eq_getLast_of_ne_nil hne]
  have hlatest : (sortedEvidence (before ++ item :: after)).getLast hne ∈
      before ++ item :: after :=
    (List.mem_insertionSort _).mp (List.getLast_mem hne)
  exact List.mem_map_of_mem (mem_last_of_insertionSort TechniqueEvidence.ts rfl
    (decide_eq_true (hrecent _ hlatest)) hfew)

/-- A profile names stored evidence only. -/
theorem exists_of_mem_recentEvidenceIds {evidences : List TechniqueEvidence}
    {attackerKey id : String} {now : Int}
    (h : id ∈ (rebuildProfile svc attackerKey evidences now).recentEvidenceIds) :
    ∃ e ∈ evidences, e.evidenceId = id := by
  rw [rebuildProfile] at h
  split at h
  · exact absurd h List.not_mem_nil
  · obtain ⟨e, he, rfl⟩ := List.mem_map.mp h
    have hrecent : e ∈ recentEvidence svc evidences _ := List.mem_of_mem_drop he
    exact ⟨e, (List.mem_insertionSort _).mp (List.mem_filter.mp hrecent).1, rfl⟩

end Ingest

/-! ### A small service -/

def sampleProfiler : ProfilerService ℕ where
  py := sampleBuiltins
  catalog := sampleCatalog
  chainWindowSeconds := 600
  confidence weight := weight

end Honeynet.Profiler
