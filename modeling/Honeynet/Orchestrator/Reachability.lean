import Honeynet.Orchestrator.RunningOnce

/-!
# What is listed as reachable, and as failed

Three readers go over the records of a binding, each with its own test, and their lists are
joined.

* `BackendUp`: the backend of a record is up.
* `listsLive_iff`: the assets listed as reachable are those with a live record, unless a compose
  project is down.
* `disjoint_iff`: no asset is listed as reachable and as failed.
* `alwaysConsistent_iff`: what the gateway is told of a binding, along every run.
-/

namespace Honeynet.Orchestrator

open Collections Effect

/-! ### Backends -/

section Backends

variable (host : Host) (w : World) (record : AssetRuntimeRecord)

/-- The container of the record is up. -/
def containerUp : Bool :=
  match (record.settings.get "container_name").str? with
  | some name => name != "" && isUp (host.containerStatus w name)
  | none => false

/-- The project of the record has containers, and all of them are up. -/
def projectUp : Bool :=
  match (record.settings.get "compose_project").str? with
  | some project => project != "" && allUp (host.projectStatuses w project)
  | none => false

/-- **The backend of the record is up**; a mock always is. -/
def BackendUp : Prop :=
  (backendOf host record = "docker" → containerUp host w record = true) ∧
    (backendOf host record = "compose" → projectUp host w record = true)

/-- The record runs and is shown. -/
def AssetRuntimeRecord.Visible : Prop := record.status = .running ∧ record.hidden = false

variable {host w record} {bindingId assetId : String}

theorem runtimeRecordIsAccessible_iff : runtimeRecordIsAccessible host w record = true ↔
    record.Visible ∧ (backendOf host record = "docker" → containerUp host w record = true) := by
  rw [runtimeRecordIsAccessible, Bool.and_eq_true, Bool.and_eq_true, Bool.not_eq_true',
    beq_iff_eq, AssetRuntimeRecord.Visible, and_comm (b := record.status = .running)]
  refine and_congr_right fun _ => ?_
  by_cases hbackend : backendOf host record = "docker"
  · rw [if_neg (by simp [hbackend])]
    exact ⟨fun h _ => h, fun h => h hbackend⟩
  · rw [if_pos (by simpa using hbackend)]
    exact iff_of_true rfl fun h => absurd h hbackend

theorem composeRecordIsAccessible_iff : composeRecordIsAccessible host w record = true ↔
    record.Visible ∧ backendOf host record = "compose" ∧ projectUp host w record = true := by
  rw [composeRecordIsAccessible, Bool.and_eq_true, Bool.and_eq_true, Bool.and_eq_true,
    Bool.not_eq_true', beq_iff_eq, beq_iff_eq, AssetRuntimeRecord.Visible,
    and_comm (b := record.status = .running), and_assoc]
  rfl

theorem composeRecordIsFailed_iff : composeRecordIsFailed host w record = true ↔
    record.hidden = false ∧ backendOf host record = "compose" ∧
      (record.status = .failed ∨ record.status = .running ∧ projectUp host w record = false) := by
  rw [composeRecordIsFailed, Bool.and_eq_true, Bool.and_eq_true, Bool.not_eq_true', beq_iff_eq,
    Bool.or_eq_true, Bool.and_eq_true, beq_iff_eq, beq_iff_eq, and_assoc]
  refine and_congr_right fun _ => and_congr_right fun _ => or_congr_right
    (and_congr_right fun _ => ?_)
  rw [projectUp]
  cases (record.settings.get "compose_project").str? with
  | none => exact iff_of_true rfl rfl
  | some project => rw [← Bool.not_eq_true', Bool.not_and, bne, Bool.not_not]

theorem runtimeRecordIsFailed_of_failed (hhidden : record.hidden = false)
    (hstatus : record.status = .failed) : runtimeRecordIsFailed host w record = true := by
  simp [runtimeRecordIsFailed, hhidden, hstatus]

/-- What the runtime reader counts as failed has failed, or is a container that is not up. -/
theorem status_of_runtimeRecordIsFailed (h : runtimeRecordIsFailed host w record = true) :
    record.hidden = false ∧ (record.status = .failed ∨
      record.status = .running ∧ backendOf host record = "docker" ∧
        containerUp host w record = false) := by
  rw [runtimeRecordIsFailed, Bool.and_eq_true, Bool.not_eq_true', Bool.or_eq_true,
    Bool.and_eq_true, Bool.and_eq_true, beq_iff_eq, beq_iff_eq, beq_iff_eq, and_assoc] at h
  refine ⟨h.1, h.2.imp_right fun ⟨hstatus, hbackend, hname⟩ => ⟨hstatus, hbackend, ?_⟩⟩
  rw [containerUp]
  revert hname
  cases (record.settings.get "container_name").str? with
  | none => exact fun _ => rfl
  | some name =>
    intro hname
    rcases Bool.or_eq_true_iff.mp hname with hempty | hdown
    · rw [beq_iff_eq.mp hempty]
      rfl
    · have hnot := (Bool.and_eq_true_iff.mp hdown).2
      rw [Bool.not_eq_true'] at hnot
      have hdown : (name != "" && isUp (host.containerStatus w name)) = false := by
        rw [hnot, Bool.and_false]
      exact hdown

end Backends

/-! ### The lists -/

section Lists

variable {host : Host} {w : World} {bindingId assetId : String}

theorem mem_unionOf {counts : List (AssetRuntimeRecord → Bool)} :
    assetId ∈ unionOf counts (w.listByBinding bindingId) ↔ ∃ count ∈ counts,
      ∃ r ∈ w.runtimes, r.bindingId = bindingId ∧ r.assetId = assetId ∧ count r = true := by
  rw [unionOf, mem_appendNew, List.mem_flatMap, or_iff_right List.not_mem_nil]
  refine exists_congr fun count => and_congr_right fun _ => ?_
  rw [List.mem_map]
  constructor
  · rintro ⟨r, hr, hasset⟩
    obtain ⟨hr, hcount⟩ := List.mem_filter.mp hr
    obtain ⟨hr, hb⟩ := List.mem_filter.mp hr
    exact ⟨r, hr, beq_iff_eq.mp hb, hasset, hcount⟩
  · rintro ⟨r, hr, hb, hasset, hcount⟩
    exact ⟨r, List.mem_filter.mpr ⟨List.mem_filter.mpr ⟨hr, beq_iff_eq.mpr hb⟩, hcount⟩, hasset⟩

/-- **An asset is listed as reachable if a record of it is shown and runs**, unless that is a
container that is not up. -/
theorem mem_accessible : assetId ∈ listAccessibleAssetIds host w bindingId ↔
    ∃ r ∈ w.runtimes, r.bindingId = bindingId ∧ r.assetId = assetId ∧
      runtimeRecordIsAccessible host w r = true := by
  rw [listAccessibleAssetIds, mem_unionOf]
  constructor
  · rintro ⟨count, hcount, r, hr, hb, ha, hcounted⟩
    refine ⟨r, hr, hb, ha, ?_⟩
    rw [List.mem_cons, List.mem_cons, List.mem_singleton] at hcount
    rcases hcount with rfl | rfl | rfl
    · obtain ⟨hvisible, hbackend, -⟩ := composeRecordIsAccessible_iff.mp hcounted
      rw [runtimeRecordIsAccessible_iff, hbackend]
      exact ⟨hvisible, fun hdocker => absurd hdocker (by decide)⟩
    · exact hcounted
    · rw [mockRecordIsAccessible, Bool.and_eq_true, Bool.and_eq_true, beq_iff_eq,
        Bool.not_eq_true', bne_iff_ne] at hcounted
      rw [runtimeRecordIsAccessible_iff]
      exact ⟨hcounted.1, fun hdocker => absurd hdocker hcounted.2⟩
  · rintro ⟨r, hr, hb, ha, haccessible⟩
    exact ⟨_, by simp, r, hr, hb, ha, haccessible⟩

/-- **An asset is listed as failed if a record of it that is shown has failed**, or runs without
its container or its project. -/
theorem mem_failed : assetId ∈ listFailedAssetIds host w bindingId ↔
    ∃ r ∈ w.runtimes, r.bindingId = bindingId ∧ r.assetId = assetId ∧
      (composeRecordIsFailed host w r = true ∨ runtimeRecordIsFailed host w r = true) := by
  rw [listFailedAssetIds, mem_unionOf]
  constructor
  · rintro ⟨count, hcount, r, hr, hb, ha, hcounted⟩
    refine ⟨r, hr, hb, ha, ?_⟩
    rw [List.mem_cons, List.mem_cons, List.mem_singleton] at hcount
    rcases hcount with rfl | rfl | rfl
    · exact Or.inl hcounted
    · exact Or.inr hcounted
    · exact Or.inr (Bool.and_eq_true_iff.mp hcounted).2
  · rintro ⟨r, hr, hb, ha, hfailed | hfailed⟩
    · exact ⟨_, by simp, r, hr, hb, ha, hfailed⟩
    · exact ⟨runtimeRecordIsFailed host w, by simp, r, hr, hb, ha, hfailed⟩

/-! ### Live records -/

/-- The list of reachable assets is that of the assets with a live record. -/
def ListsLive (host : Host) (w : World) (bindingId : String) : Prop :=
  ∀ assetId, assetId ∈ listAccessibleAssetIds host w bindingId ↔
    ∃ r ∈ w.runtimes, r.bindingId = bindingId ∧ r.assetId = assetId ∧
      r.Visible ∧ BackendUp host w r

/-- **The list is that of the live assets if and only if every shown project that runs is up**, or
its asset has another live record. -/
theorem listsLive_iff (host : Host) (w : World) (bindingId : String) :
    ListsLive host w bindingId ↔
      ∀ r ∈ w.runtimes, r.bindingId = bindingId → r.Visible → backendOf host r = "compose" →
        projectUp host w r = false → ∃ r' ∈ w.runtimes, r'.bindingId = bindingId ∧
          r'.assetId = r.assetId ∧ r'.Visible ∧ BackendUp host w r' := by
  constructor
  · intro h r hr hb hvisible hbackend _
    refine (h r.assetId).mp (mem_accessible.mpr ⟨r, hr, hb, rfl, ?_⟩)
    rw [runtimeRecordIsAccessible_iff, hbackend]
    exact ⟨hvisible, fun hdocker => absurd hdocker (by decide)⟩
  · intro h assetId
    rw [mem_accessible]
    constructor
    · rintro ⟨r, hr, hb, rfl, haccessible⟩
      obtain ⟨hvisible, hdocker⟩ := runtimeRecordIsAccessible_iff.mp haccessible
      by_cases hproject : backendOf host r = "compose" → projectUp host w r = true
      · exact ⟨r, hr, hb, rfl, hvisible, hdocker, hproject⟩
      · obtain ⟨hbackend, hdown⟩ := Classical.not_imp.mp hproject
        exact h r hr hb hvisible hbackend (Bool.eq_false_iff.mpr hdown)
    · rintro ⟨r, hr, hb, ha, hvisible, hdocker, -⟩
      exact ⟨r, hr, hb, ha, runtimeRecordIsAccessible_iff.mpr ⟨hvisible, hdocker⟩⟩

/-- A project of which no container is left. -/
def labRecord : AssetRuntimeRecord where
  runtimeId := "r-1"
  bindingId := "b-1"
  assetId := "web-lab"
  assetName := "lab"
  templateFamily := none
  status := .running
  protocols := []
  ports := []
  settings := [("runtime_backend", .str "compose"), ("compose_project", .str "lab")]
  sourceRefs := []
  startedAt := .utc 0

/-- **A project that is gone is still listed as reachable.** -/
theorem lost_project_listed : ¬ ∀ host w bindingId, ListsLive host w bindingId := by
  intro h
  have hlisted : "web-lab" ∈ listAccessibleAssetIds (quietHost []) { runtimes := [labRecord] }
      "b-1" := by decide +kernel
  obtain ⟨r, hr, -, -, -, -, hup⟩ := (h _ _ _ _).mp hlisted
  rw [List.mem_singleton.mp hr] at hup
  exact absurd (hup rfl) (by decide +kernel)

/-! ### Reachable and failed -/

/-- No asset is both reachable and failed. -/
def DisjointLists (host : Host) (w : World) (bindingId : String) : Prop :=
  ∀ assetId ∈ listAccessibleAssetIds host w bindingId,
    assetId ∉ listFailedAssetIds host w bindingId

/-- Beside a reachable record of the binding there is no shown one of its asset that has failed,
and its project, if it is one, is up. -/
def Settled (host : Host) (w : World) (bindingId : String) : Prop :=
  ∀ r ∈ w.runtimes, r.bindingId = bindingId → runtimeRecordIsAccessible host w r = true →
    (∀ r' ∈ w.runtimes, r'.bindingId = bindingId → r'.assetId = r.assetId →
      r'.status = .failed → r'.hidden = true) ∧
    (backendOf host r = "compose" → projectUp host w r = true)

/-- **The lists have no asset in common if and only if the records are settled.** -/
theorem disjoint_iff (h : Sole w) :
    DisjointLists host w bindingId ↔ Settled host w bindingId := by
  constructor
  · intro hdisjoint r hr hb haccessible
    have hasset := hdisjoint r.assetId (mem_accessible.mpr ⟨r, hr, hb, rfl, haccessible⟩)
    obtain ⟨hvisible, -⟩ := runtimeRecordIsAccessible_iff.mp haccessible
    refine ⟨fun r' hr' hb' ha' hstatus => ?_, fun hbackend => ?_⟩
    · by_contra hshown
      exact hasset (mem_failed.mpr ⟨r', hr', hb', ha',
        Or.inr (runtimeRecordIsFailed_of_failed (Bool.eq_false_iff.mpr hshown) hstatus)⟩)
    · by_contra hdown
      exact hasset (mem_failed.mpr ⟨r, hr, hb, rfl, Or.inl (composeRecordIsFailed_iff.mpr
        ⟨hvisible.2, hbackend, Or.inr ⟨hvisible.1, Bool.eq_false_iff.mpr hdown⟩⟩)⟩)
  · intro hsettled assetId hreached hlost
    obtain ⟨r, hr, hb, rfl, haccessible⟩ := mem_accessible.mp hreached
    obtain ⟨r', hr', hb', ha', hfailed⟩ := mem_failed.mp hlost
    obtain ⟨hnone, hproject⟩ := hsettled r hr hb haccessible
    obtain ⟨hvisible, hdocker⟩ := runtimeRecordIsAccessible_iff.mp haccessible
    -- what fails while it runs is the one record that runs
    have hsame : r'.status = .running → r' = r := fun hstatus =>
      h.unique r' hr' r hr (runs_iff.mpr ⟨hb', ha', hstatus⟩) (runs_iff.mpr ⟨hb, rfl, hvisible.1⟩)
    rcases hfailed with hfailed | hfailed
    · obtain ⟨hshown, hbackend, hstatus | ⟨hstatus, hdown⟩⟩ := composeRecordIsFailed_iff.mp hfailed
      · exact absurd (hnone r' hr' hb' ha' hstatus) (by simp [hshown])
      · obtain rfl := hsame hstatus
        exact absurd (hproject hbackend) (by simp [hdown])
    · obtain ⟨hshown, hstatus | ⟨hstatus, hbackend, hdown⟩⟩ :=
        status_of_runtimeRecordIsFailed hfailed
      · exact absurd (hnone r' hr' hb' ha' hstatus) (by simp [hshown])
      · obtain rfl := hsame hstatus
        exact absurd (hdocker hbackend) (by simp [hdown])

end Lists

/-! ### What the gateway is told -/

section Gateway

variable {host : Host} {bindingId : String} {actions : List ControllerAction}

theorem sole_keeps (host : Host) : Keeps host Sole where
  started _ _ h hstart := sole_started h hstart
  configured h hconfigured := sole_configured h hconfigured
  rest _ _ _ h := ⟨h.nodup, h.unique⟩

theorem sole_call (call : Call) {s : World} (h : Sole s) : Sole (call.run host s) :=
  keeps_call (sole_keeps host) call (fun _ _ _ _ _ _ => sole_stopped) h

/-- The actions of a call, up to where it writes the gateway. -/
def applied (host : Host) (bindingId : String) (actions : List ControllerAction) :
    Orchestrate Progress := do
  let binding ← getBinding bindingId
  applyActions host bindingId binding actions

/-- An apply that returns has written the gateway from the stores its actions left. -/
theorem exec_apply {s t : World} {progress : Progress} :
    exec (apply host bindingId actions) s = (.ok progress, t) ↔
      ∃ w, exec (applied host bindingId actions) s = (.ok progress, w) ∧
        t = w.sync host progress.binding progress.routeUpdates := by
  have hrun : exec (apply host bindingId actions) s =
      match exec (applied host bindingId actions) s with
      | (.ok progress, w) => (.ok progress, w.sync host progress.binding progress.routeUpdates)
      | (.error e, w) => (.error e, w) := by
    rw [apply, applied, exec_bind, exec_bind]
    cases exec (getBinding bindingId) s with
    | mk r u =>
      cases r with
      | error e => rfl
      | ok binding =>
        simp only [exec_bind]
        cases exec (applyActions host bindingId binding actions) u with
        | mk r v => cases r <;> rfl
  rw [hrun]
  cases exec (applied host bindingId actions) s with
  | mk r w =>
    cases r with
    | error e => simp
    | ok result =>
      simp only [Prod.mk.injEq, Except.ok.injEq]
      constructor
      · rintro ⟨rfl, rfl⟩
        exact ⟨w, ⟨rfl, rfl⟩, rfl⟩
      · rintro ⟨_, ⟨rfl, rfl⟩, rfl⟩
        exact ⟨rfl, rfl⟩

/-- The gateway's state of the binding has no asset that is both exposed and failed. -/
def GatewayConsistent (w : World) (bindingId : String) : Prop :=
  ∀ g ∈ w.gateway, g.bindingId = bindingId → ∀ assetId ∈ g.exposedAssets,
    assetId ∉ g.failedAssets

/-- What is written of a binding are its two lists. -/
theorem gatewayConsistent_sync {w : World} {progress : Progress} :
    GatewayConsistent (w.sync host progress.binding progress.routeUpdates)
        progress.binding.bindingId ↔ DisjointLists host w progress.binding.bindingId := by
  constructor
  · intro h
    exact h _ (self_mem_upsertBy _ _) rfl
  · intro h g hg hb
    rcases mem_upsertBy hg with rfl | ⟨-, hne⟩
    · exact h
    · exact absurd hb hne

/-! ### Along a run -/

/-- Calls one after another, each with what the host answers to it. -/
def runAll (calls : List (Host × Call)) (w : World) : World :=
  calls.foldl (fun w call => call.2.run call.1 w) w

theorem sole_runAll (calls : List (Host × Call)) {s : World} (h : Sole s) :
    Sole (runAll calls s) := by
  induction calls generalizing s with
  | nil => exact h
  | cons call calls ih => exact ih (sole_call call.2 h)

/-- Every apply of the run that returns leaves the gateway consistent. -/
def AlwaysConsistent (calls : List (Host × Call)) : Prop :=
  ∀ before host bindingId actions after,
    calls = before ++ (host, Call.apply bindingId actions) :: after →
      ∀ progress t, exec (apply host bindingId actions) (runAll before {}) = (.ok progress, t) →
        GatewayConsistent t progress.binding.bindingId

/-- **The gateway stays consistent if and only if it is written from settled records.** -/
theorem alwaysConsistent_iff (calls : List (Host × Call)) : AlwaysConsistent calls ↔
    ∀ before host bindingId actions after,
      calls = before ++ (host, Call.apply bindingId actions) :: after →
        ∀ progress w,
          exec (applied host bindingId actions) (runAll before {}) = (.ok progress, w) →
            Settled host w progress.binding.bindingId := by
  have hsole : ∀ before host bindingId actions progress w,
      exec (applied host bindingId actions) (runAll before {}) = (.ok progress, w) → Sole w := by
    intro before host bindingId actions progress w hrun
    have hempty : Sole {} := ⟨List.nodup_nil, fun _ hr => absurd hr (by simp)⟩
    have htriple : Triple Sole (applied host bindingId actions) (fun _ => Sole) Sole :=
      (getBinding_spec.post fun _ _ => And.left).bind fun binding =>
        keeps_applyActions (sole_keeps host) (fun _ _ _ => sole_stopped) binding
    have hafter := htriple.after (sole_runAll before hempty)
    rwa [hrun] at hafter
  constructor
  · intro h before host bindingId actions after heq progress w hrun
    rw [← disjoint_iff (hsole _ _ _ _ _ _ hrun), ← gatewayConsistent_sync]
    exact h before host bindingId actions after heq progress _ (exec_apply.mpr ⟨w, hrun, rfl⟩)
  · intro h before host bindingId actions after heq progress t hrun
    obtain ⟨w, happlied, rfl⟩ := exec_apply.mp hrun
    rw [gatewayConsistent_sync, disjoint_iff (hsole _ _ _ _ _ _ happlied)]
    exact h before host bindingId actions after heq progress w happlied

/-- A repository that did not start when it was unlocked. -/
def failedRun : List (Host × Call) :=
  [(quietHost gitCatalog, .binding (.resolve "198.51.100.7")),
    (brokenHost, .apply "u" [unlockOf "git-internal"])]

/-- **When it starts the next time**, it is exposed and failed. -/
theorem retried_start : ¬ ∀ calls : List (Host × Call), (∀ call ∈ calls, call.1.Fresh) →
    AlwaysConsistent calls := by
  intro h
  have hbroken : brokenHost.Fresh := ⟨fun _ => freshId_notMem _, fun _ => freshId_notMem _⟩
  have hquiet := quietHost_fresh gitCatalog
  have hconsistent := h (failedRun ++ [(quietHost gitCatalog, .apply "u" [unlockOf "git-internal"])])
    (by simp [failedRun, hbroken, hquiet]) failedRun _ _ _ [] rfl
  have hboth : ((exec (apply (quietHost gitCatalog) "u" [unlockOf "git-internal"])
      (runAll failedRun {})).1.toOption.any fun progress =>
        (exec (apply (quietHost gitCatalog) "u" [unlockOf "git-internal"])
          (runAll failedRun {})).2.gateway.any fun g =>
            g.bindingId == progress.binding.bindingId &&
              (g.exposedAssets.contains "git-internal" &&
                g.failedAssets.contains "git-internal")) = true := by decide +kernel
  cases hrun : exec (apply (quietHost gitCatalog) "u" [unlockOf "git-internal"])
      (runAll failedRun {}) with
  | mk r t =>
    rw [hrun] at hboth
    cases r with
    | error e => exact absurd hboth (by simp [Except.toOption])
    | ok progress =>
      obtain ⟨g, hg, hlists⟩ := List.any_eq_true.mp hboth
      obtain ⟨hb, hlists⟩ := Bool.and_eq_true_iff.mp hlists
      obtain ⟨hexposed, hfailed⟩ := Bool.and_eq_true_iff.mp hlists
      exact hconsistent progress t hrun g hg (beq_iff_eq.mp hb) "git-internal"
        (List.contains_iff_mem.mp hexposed) (List.contains_iff_mem.mp hfailed)

end Gateway

end Honeynet.Orchestrator
