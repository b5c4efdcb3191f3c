import Honeynet.Orchestrator.Service
import Honeynet.Orchestrator.Starts

/-!
# A backend swap that fails

A start with a runtime of its own replaces the record that runs: its containers are removed and
it is stopped before the new container is run.

* `Refused`: the start raises before it has touched the running record.
* `SwapFailed`: what a swap that raises leaves behind.
* `failed_swap`: a refused swap keeps the record, any other has removed its containers.
* `verification_failed`: a container that does not come up takes the record with it.
-/

namespace Honeynet.Orchestrator

open Collections Effect

/-- The start is refused: there is no docker command, or no runtime with an image. -/
def Refused (host : Host) (s : World) (asset : AssetDefinition) (runtimeOverride : Settings) :
    Prop :=
  (host.docker s asset).cli = false ∨
    ∀ runtime, dockerRuntime host asset (some runtimeOverride) = .ok runtime →
      ∀ image, dockerImage asset runtime ≠ .ok image

/-- The containers are removed up to one that could not be. -/
def CutShort (host : Host) (names : List String) (s w : World) : Prop :=
  ∃ before name after e, names = before ++ name :: after ∧
    w = { s with removals := s.removals ++ (before ++ [name]) } ∧ host.remove w name = some e

/-- The containers of the record are removed and it is stopped. -/
def Replaced (old : AssetRuntimeRecord) (s w : World) : Prop :=
  ∃ removals, w = World.upsertRuntime
    { s with removals := s.removals ++ (containersOf old ++ removals) } old.stop

/-- **What a swap that raises leaves behind.** -/
structure SwapFailed (host : Host) (asset : AssetDefinition) (runtimeOverride : Settings)
    (old : AssetRuntimeRecord) (s w : World) : Prop where
  refused : Refused host s asset runtimeOverride → w = s
  begun : ¬ Refused host s asset runtimeOverride → 
    CutShort host (containersOf old) s w ∨ Replaced old s w

/-- **What is left of the record once the start has returned a failed one.** -/
structure AfterFailure (host : Host) (asset : AssetDefinition) (runtimeOverride : Settings)
    (old : AssetRuntimeRecord) (s t : World) : Prop where
  /-- A refused start has removed nothing, and the record still runs. -/
  refused : Refused host s asset runtimeOverride → old ∈ t.runtimes ∧ t.removals = s.removals
  /-- Any other has removed its containers, and stopped it unless one could not be removed. -/
  begun : ¬ Refused host s asset runtimeOverride →
    (old.stop ∈ t.runtimes ∧
      ∃ removals, t.removals = s.removals ++ (containersOf old ++ removals)) ∨
    (old ∈ t.runtimes ∧ ∃ before name after w e, containersOf old = before ++ name :: after ∧
      host.remove w name = some e ∧ t.removals = s.removals ++ (before ++ [name]))

section Swap

variable {host : Host} {bindingId : String} {asset : AssetDefinition}
  {attackerKey : Option String} {warmStandby : Bool} {runtimeOverride : Settings}
  {old : AssetRuntimeRecord} {s : World}

/-! ### Removing the containers -/

theorem raise?_cases (e : Option PyError) {P : World → Prop} :
    Triple P (raise? e) (fun _ t => P t ∧ e = none) fun t => P t ∧ ∃ raised, e = some raised := by
  cases e with
  | none => exact Triple.pure fun _ h => ⟨h, rfl⟩
  | some raised => exact Triple.throw fun _ h => ⟨h, raised, rfl⟩

theorem raiseIf_cases (c : Bool) (e : PyError) {P : World → Prop} :
    Triple P (raiseIf c e) (fun _ t => P t ∧ c = false) fun t => P t ∧ c = true := by
  cases c with
  | false => exact Triple.pure fun _ h => ⟨h, rfl⟩
  | true => exact Triple.throw fun _ h => ⟨h, rfl⟩

theorem answer_cases {α : Type} (x : Except PyError α) {P : World → Prop} :
    Triple P (answer x) (fun a t => P t ∧ x = .ok a) fun t => P t ∧ ∃ e, x = .error e := by
  cases x with
  | ok a => exact Triple.pure fun _ h => ⟨h, rfl⟩
  | error e => exact Triple.throw fun _ h => ⟨h, e, rfl⟩

/-- Containers are removed in order, up to the first one that cannot be. -/
theorem removeContainers_log (names : List String) :
    Triple (· = s) (removeContainers host names)
      (fun _ t => t = { s with removals := s.removals ++ names }) (CutShort host names s) := by
  induction names generalizing s with
  | nil =>
    refine Triple.pure ?_
    rintro _ rfl
    rw [List.append_nil]
  | cons name names ih =>
    have hlog : Triple (· = s) (modify fun w => w.logRemoval name : Orchestrate PUnit)
        (fun _ t => t = s.logRemoval name) (CutShort host (name :: names) s) :=
      Triple.modify fun _ h => by rw [h]
    refine hlog.bind fun _ => Triple.get_bind ?_
    rintro _ rfl
    refine ((raise?_cases _).conseq (fun _ => id) (fun _ _ h => h.1) ?_).bind fun _ => ih.conseq
      (fun _ => id) ?_ ?_
    · rintro _ ⟨rfl, e, he⟩
      exact ⟨[], name, names, e, rfl, rfl, he⟩
    · rintro _ _ rfl
      simp [World.logRemoval]
    · rintro _ ⟨before, cut, after, e, rfl, rfl, he⟩
      refine ⟨name :: before, cut, after, e, rfl, ?_, he⟩
      simp [World.logRemoval]

/-- Stopping a record removes its containers first. -/
theorem stopRuntimeRecord_log (record : AssetRuntimeRecord) :
    Triple (· = s) (stopRuntimeRecord host record)
      (fun _ t => t = World.upsertRuntime
        { s with removals := s.removals ++ containersOf record } record.stop)
      (CutShort host (containersOf record) s) := by
  refine (removeContainers_log _).bind fun _ => upsertRuntime_spec ?_
  rintro _ rfl
  rfl

/-! ### What a start with a runtime of its own does -/

theorem recordStarted_running {settings : Settings} {managed : Bool} {P E : World → Prop} :
    Triple P (recordStarted host bindingId asset settings managed attackerKey warmStandby)
      (fun record _ => record.status = .running) E := by
  refine Triple.get_bind fun w _ => ?_
  refine (routeTo_spec (s := w) fun _ h => h).bind fun _ => ?_
  exact upsertRuntime_spec fun _ _ => rfl

theorem stopExisting_log :
    Triple (· = s) (stopExisting (stopRuntimeRecord host) (some old))
      (fun _ t => t = World.upsertRuntime
        { s with removals := s.removals ++ containersOf old } old.stop)
      (CutShort host (containersOf old) s) :=
  (stopRuntimeRecord_log old).bind fun _ => Triple.pure fun _ h => h

/-- **A start with a runtime of its own returns a running record, or raises.** -/
theorem launchContainer_swap :
    Triple (· = s) (launchContainer host bindingId asset attackerKey warmStandby (some old)
        (some runtimeOverride))
      (fun record _ => record.status = .running)
      (SwapFailed host asset runtimeOverride old s) := by
  refine Triple.get_bind ?_
  rintro w rfl
  have hrefused : Refused host w asset runtimeOverride →
      SwapFailed host asset runtimeOverride old w w :=
    fun h => ⟨fun _ => rfl, fun hnot => absurd h hnot⟩
  -- the checks, each of which refuses the start
  refine ((raiseIf_cases _ _).conseq (fun _ => id) (fun _ _ => id) ?_).bind fun _ =>
    Triple.of_and fun hcli => ?_
  · rintro _ ⟨rfl, hno⟩
    rw [Bool.not_eq_true'] at hno
    exact hrefused (Or.inl hno)
  rw [Bool.not_eq_false'] at hcli
  refine ((raiseIf_cases _ _).conseq (fun _ => id) (fun _ _ h => h.1) ?_).bind fun _ => ?_
  · rintro _ ⟨rfl, hnone⟩
    simp at hnone
  refine ((answer_cases _).conseq (fun _ => id) (fun _ _ => id) ?_).bind fun runtime =>
    Triple.of_and fun hruntime => ?_
  · rintro _ ⟨rfl, e, he⟩
    refine hrefused (Or.inr fun runtime hruntime => ?_)
    exact absurd (he.symm.trans hruntime) (by simp)
  refine ((answer_cases _).conseq (fun _ => id) (fun _ _ => id) ?_).bind fun image =>
    Triple.of_and fun himage => ?_
  · rintro _ ⟨rfl, e, he⟩
    refine hrefused (Or.inr fun runtime' hruntime' image himage => ?_)
    obtain rfl := Except.ok.inj (hruntime.symm.trans hruntime')
    exact absurd (he.symm.trans himage) (by simp)
  have hbegun : ¬ Refused host w asset runtimeOverride := by
    rintro (hno | hnone)
    · exact absurd (hcli.symm.trans hno) (by decide)
    · exact hnone runtime hruntime image himage
  refine (stopExisting_log.conseq (fun _ => id) (fun _ _ => id) ?_).bind fun _ => ?_
  · exact fun t ht => ⟨fun h => absurd h hbegun, fun _ => Or.inl ht⟩
  -- once the record is stopped, nothing that raises brings it back
  have hreplaced : ∀ t, Replaced old w t → SwapFailed host asset runtimeOverride old w t :=
    fun t ht => ⟨fun h => absurd h hbegun, fun _ => Or.inr ht⟩
  refine (Triple.modify (Q := fun _ => Replaced old w) ?_).bind fun _ =>
    Triple.conseq (P := Replaced old w) (Q := fun record _ => record.status = .running) ?_
      (fun _ => id) (fun _ _ => id) hreplaced
  · rintro _ rfl
    refine ⟨(host.docker w asset).removals, ?_⟩
    rw [← List.append_assoc]
    rfl
  refine (raise?_spec _).bind fun _ => ?_
  refine (answer_spec _).bind fun settings => Triple.of_and fun _ => ?_
  refine (raise?_spec _).bind fun _ => ?_
  refine (raise?_spec _).bind fun _ => ?_
  refine (answer_spec _).bind fun sidecars => Triple.of_and fun _ => ?_
  exact (answer_spec _).bind fun ip => recordStarted_running

/-- The record of the failure is a new one. -/
theorem failedStart_swap (hfresh : host.Fresh) (hold : old ∈ s.runtimes) {backend : String}
    {e : PyError} {E : World → Prop} :
    Triple (SwapFailed host asset runtimeOverride old s)
      (failedStart host backend bindingId asset warmStandby e)
      (fun _ => AfterFailure host asset runtimeOverride old s) E := by
  refine Triple.get_bind fun w hw => upsertRuntime_spec ?_
  rintro w rfl
  have hkept : ∀ {settings : Settings}, ∀ record ∈ w.runtimes, record ∈
      (w.upsertRuntime (runtimeRecordFromAsset host w bindingId asset .failed settings)).runtimes :=
    fun record hrecord => mem_upsertRuntime_of_ne hrecord fun heq =>
      hfresh.runtime w (List.mem_map.mpr ⟨record, hrecord, heq⟩)
  constructor
  · intro h
    obtain rfl := hw.refused h
    exact ⟨hkept old hold, rfl⟩
  · intro h
    rcases hw.begun h with ⟨before, name, after, e, hnames, rfl, he⟩ | ⟨removals, rfl⟩
    · exact Or.inr ⟨hkept old hold, before, name, after, _, e, hnames, he, rfl⟩
    · exact Or.inl ⟨hkept _ (self_mem_upsertRuntime _ _), removals, rfl⟩

theorem startAsset_swap (hfresh : host.Fresh)
    (hold : existingRunningRecord s bindingId asset.assetId = some old) {E : World → Prop} :
    Triple (· = s)
      (startAsset host bindingId asset attackerKey warmStandby (some runtimeOverride))
      (fun record t => record.status = .failed →
        AfterFailure host asset runtimeOverride old s t) E := by
  have hdocker : Triple (· = s) (dockerStartAsset host bindingId asset attackerKey warmStandby
      (some runtimeOverride)) (fun record _ => record.status = .running)
      (SwapFailed host asset runtimeOverride old s) := by
    refine Triple.get_bind ?_
    rintro _ rfl
    simp only [hold]
    exact launchContainer_swap
  refine Triple.tryCatch (hdocker.post ?_) fun e => (failedStart_swap hfresh ?_).post ?_
  · intro record t hrunning hfailed
    exact absurd (hrunning.symm.trans hfailed) (by decide)
  · exact (existingRunningRecord_spec hold).1
  · exact fun _ _ h _ => h

/-- **A start with a runtime of its own that returns a failed record** keeps the record that ran if
it was refused, and otherwise has removed its containers first. -/
theorem failed_swap (hfresh : host.Fresh)
    (hold : existingRunningRecord s bindingId asset.assetId = some old)
    {record : AssetRuntimeRecord} {t : World}
    (hstart : exec (startAsset host bindingId asset attackerKey warmStandby
      (some runtimeOverride)) s = (.ok record, t))
    (hfailed : record.status = .failed) : AfterFailure host asset runtimeOverride old s t :=
  ((startAsset_swap (E := fun _ => True) hfresh hold) s rfl).1 record t hstart hfailed

end Swap

/-! ### Two failures -/

/-- A machine where docker answers as `answers`. -/
def answeringHost (answers : DockerAnswers) : Host :=
  { quietHost gitCatalog with docker := fun _ _ => answers }

theorem answeringHost_fresh (answers : DockerAnswers) : (answeringHost answers).Fresh :=
  ⟨fun _ => freshId_notMem _, fun _ => freshId_notMem _⟩

/-- A machine without docker. -/
def bareHost : Host := answeringHost {
  (quietHost gitCatalog).docker {} { assetId := "", exposureType := .internal } with cli := false }

/-- A machine where no container passes its verification. -/
def sickHost : Host := answeringHost {
  (quietHost gitCatalog).docker {} { assetId := "", exposureType := .internal } with
  verify := some ⟨.runtimeError, "container failed startup verification"⟩ }

def gitAsset : AssetDefinition := { assetId := "git-internal", exposureType := .internal }

def gitRecord : AssetRuntimeRecord where
  runtimeId := "r-1"
  bindingId := "b-1"
  assetId := "git-internal"
  assetName := "git"
  templateFamily := none
  status := .running
  protocols := []
  ports := []
  settings := [("container_name", .str "honeynet-b-1-git-internal")]
  sourceRefs := []
  startedAt := .utc 0

def deepRuntime : Settings := [("backend", .str "docker"), ("image", .str "gitea-deep")]

/-- The repository is replaced by a deeper one. -/
def swapGit (host : Host) : Except PyError AssetRuntimeRecord × World :=
  exec (startAsset host "b-1" gitAsset (some "198.51.100.7") false (some deepRuntime))
    { runtimes := [gitRecord] }

/-- Without docker the swap is refused, and the repository still runs. -/
theorem refused_swap_keeps : ∃ record t, swapGit bareHost = (.ok record, t) ∧
    record.status = .failed ∧ gitRecord ∈ t.runtimes ∧ t.removals = [] := by
  have hold : existingRunningRecord { runtimes := [gitRecord] } "b-1" gitAsset.assetId =
      some gitRecord := rfl
  have hrefused : Refused bareHost { runtimes := [gitRecord] } gitAsset deepRuntime := Or.inl rfl
  have hstart : swapGit bareHost = (.ok _, _) := rfl
  exact ⟨_, _, hstart, rfl,
    (failed_swap (answeringHost_fresh _) hold hstart rfl).refused hrefused⟩

/-- A container that fails its verification takes the repository with it. -/
theorem verification_failed : ¬ ∀ (host : Host) (s t : World) (bindingId : String)
    (asset : AssetDefinition) (attackerKey : Option String) (warmStandby : Bool)
    (runtimeOverride : Settings) (old record : AssetRuntimeRecord), host.Fresh →
    existingRunningRecord s bindingId asset.assetId = some old →
    exec (startAsset host bindingId asset attackerKey warmStandby (some runtimeOverride)) s =
      (.ok record, t) → record.status = .failed →
    old ∈ t.runtimes ∧ ∀ name ∈ containersOf old, name ∉ t.removals.drop s.removals.length := by
  intro h
  have hkept := h sickHost { runtimes := [gitRecord] } _ "b-1" gitAsset (some "198.51.100.7") false
    deepRuntime gitRecord _ (answeringHost_fresh _) rfl rfl rfl
  exact hkept.2 "honeynet-b-1-git-internal" (by decide) (by decide)

end Honeynet.Orchestrator
