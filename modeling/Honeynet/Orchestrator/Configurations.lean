import Honeynet.Orchestrator.DataPlane
import Honeynet.Orchestrator.Swap

/-!
# Configurations that are revealed but not attached

A configure action writes the binding first and the runtime record afterwards; what goes wrong in
between is not taken back.

* `RevealedIn`, `ListedRunning`: the two stores in which a configuration is recorded.
* `TakesEffect`: when the second record follows the first.
* `takesEffect_iff`: the configuration is then listed as active, and otherwise it is not.
* `burnt_configuration`: a replacement that does not start leaves a reveal without effect.
-/

namespace Honeynet.Orchestrator

open Collections Binding Effect

/-! ### The two records of a configuration -/

/-- The configurations that the settings of a runtime record list as active. -/
def activeConfigurations (settings : Settings) : Settings :=
  (settings.getD "active_configurations" (.dict [])).dict?.getD []

/-- The record with a configuration active. -/
def configuredRecord (record : AssetRuntimeRecord) (configurationId : String)
    (configuration artifact : Settings) : AssetRuntimeRecord :=
  { record with
    settings := configuredSettings record.settings configurationId configuration artifact }

/-- The binding has the configuration of the asset among those revealed. -/
def RevealedIn (w : World) (bindingId assetId configurationId : String) : Prop :=
  ∃ record, getByBinding w.bindings bindingId = some record ∧
    configurationId ∈ record.revealedFor assetId

/-- The running record of the asset lists the configuration. -/
def ListedRunning (w : World) (bindingId assetId configurationId : String) : Prop :=
  ∃ record, existingRunningRecord w bindingId assetId = some record ∧
    configurationId ∈ (activeConfigurations record.settings).map Prod.fst

/-! ### Where a configuration is attached -/

section Action

variable (host : Host) (bindingId assetId configurationId : String) (action : ControllerAction)

/-- The first step of a configure action. -/
def reveal : Orchestrate BindingRecord :=
  callBinding host (.revealConfigurations bindingId [(assetId, [configurationId])])

/-- A configure action without its configuration: the reveal, and the starts of the target. -/
def revealOnly : Orchestrate Progress := do
  let binding ← reveal host bindingId assetId configurationId
  revealTarget host bindingId binding (given action.targetAssetId)
    (configurationTargetRuntime action.configuration)

/-- The stores in which the configuration is attached: after the starts of a target runtime, else
before any start. -/
def attachedIn (s : World) : World :=
  if (configurationTargetRuntime action.configuration).isSome then
    (exec (revealOnly host bindingId assetId configurationId action) s).2
  else (exec (reveal host bindingId assetId configurationId) s).2

/-- **When a configure action keeps its two records together.** -/
inductive TakesEffect (s : World) : Prop
  /-- The binding is not stored, and nothing is revealed. -/
  | unknown : getByBinding s.bindings bindingId = none → TakesEffect s
  /-- The configuration was revealed before. -/
  | known : RevealedIn s bindingId assetId configurationId → TakesEffect s
  /-- A record runs where the configuration is attached, and its files can be written. -/
  | attached {record : AssetRuntimeRecord} {artifact : Settings} :
      existingRunningRecord (attachedIn host bindingId assetId configurationId action s)
        bindingId assetId = some record →
      host.artifact (attachedIn host bindingId assetId configurationId action s) record
        configurationId action.configuration = .ok artifact → TakesEffect s
  /-- The record that runs lists it without being configured. -/
  | listed : ListedRunning (exec (revealOnly host bindingId assetId configurationId action) s).2
      bindingId assetId configurationId → TakesEffect s

end Action

/-! ### The record that runs -/

/-- The record is of the asset, and runs. -/
def AssetRuntimeRecord.runs (bindingId assetId : String) (record : AssetRuntimeRecord) : Bool :=
  record.bindingId == bindingId && (record.assetId == assetId && record.status == .running)

section Running

variable {bindingId assetId : String} {w : World} {old record : AssetRuntimeRecord}

theorem runs_iff : record.runs bindingId assetId = true ↔
    record.bindingId = bindingId ∧ record.assetId = assetId ∧ record.status = .running := by
  simp [AssetRuntimeRecord.runs]

theorem existingRunningRecord_eq (w : World) (bindingId assetId : String) :
    existingRunningRecord w bindingId assetId =
      w.runtimes.find? (AssetRuntimeRecord.runs bindingId assetId) := by
  rw [existingRunningRecord, World.listByBinding, List.find?_filter]
  congr 1
  funext record
  rw [Bool.decide_and, Bool.decide_eq_true, Bool.decide_eq_true]
  rfl

theorem runs_of_existing (h : existingRunningRecord w bindingId assetId = some old) :
    old.runs bindingId assetId = true := by
  rw [existingRunningRecord_eq] at h
  exact List.find?_some h

/-- The running record is written again. -/
theorem existing_upsert_self (h : existingRunningRecord w bindingId assetId = some old)
    (hid : record.runtimeId = old.runtimeId) (hruns : record.runs bindingId assetId = true) :
    existingRunningRecord (w.upsertRuntime record) bindingId assetId = some record := by
  rw [existingRunningRecord_eq] at h ⊢
  exact find?_upsertBy_self h hid.symm hruns

/-- Another record is written. -/
theorem existing_upsert_ne (h : existingRunningRecord w bindingId assetId = some old)
    (hother : ∀ r ∈ w.runtimes, r.runtimeId = record.runtimeId →
      r.runs bindingId assetId = false ∧ record.runs bindingId assetId = false) :
    existingRunningRecord (w.upsertRuntime record) bindingId assetId = some old := by
  rw [existingRunningRecord_eq] at h ⊢
  exact find?_upsertBy_of_ne h hother

/-! ### What it lists -/

theorem activeConfigurations_hidden (settings : Settings) (hidden : Value) :
    activeConfigurations (settings.set "warm_standby_hidden" hidden) =
      activeConfigurations settings := by
  simp only [activeConfigurations, Settings.getD]
  rw [lookup_set_ne _ (by decide)]

theorem activeConfigurations_configured (settings : Settings) (configurationId : String)
    (configuration artifact : Settings) :
    activeConfigurations (configuredSettings settings configurationId configuration artifact) =
      Dict.set (activeConfigurations settings) configurationId (.dict configuration) := by
  have hlast : ∀ active artifacts : Settings, activeConfigurations
      (if artifacts.isEmpty then Dict.set settings "active_configurations" (.dict active)
        else Dict.set (Dict.set settings "active_configurations" (.dict active))
          "configuration_artifacts" (.dict artifacts)) = active := by
    intro active artifacts
    simp only [activeConfigurations, Settings.getD]
    split
    · rw [lookup_set_self]; rfl
    · rw [lookup_set_ne _ (by decide), lookup_set_self]; rfl
  exact hlast _ _

end Running

section Configure

variable {host : Host} {bindingId assetId configurationId : String} {s w t : World}

/-! ### Starts beside a running record -/

/-- The asset has a running record, which lists these configurations. -/
structure Lists (bindingId assetId : String) (active : Settings) (w : World) : Prop where
  nodup : (runtimeIds w).Nodup
  running : ∃ record, existingRunningRecord w bindingId assetId = some record ∧
    activeConfigurations record.settings = active

theorem listedRunning_iff {active : Settings} (h : Lists bindingId assetId active w) :
    ListedRunning w bindingId assetId configurationId ↔ configurationId ∈ active.map Prod.fst := by
  obtain ⟨record, hrecord, rfl⟩ := h.running
  constructor
  · rintro ⟨r, hr, hlisted⟩
    obtain rfl := Option.some.inj (hr.symm.trans hrecord)
    exact hlisted
  · exact fun hlisted => ⟨record, hrecord, hlisted⟩

/-- **A start that replaces nothing** leaves the running record in place, listing what it did. -/
theorem lists_started (hfresh : host.Fresh) {active : Settings} {asset : AssetDefinition}
    {attacker : Option String} (hasset : asset ∈ host.catalog)
    (h : Lists bindingId assetId active w)
    (hstart : Started host bindingId asset attacker false false w t) :
    Lists bindingId assetId active t := by
  refine ⟨(nodup_keeps host).started hasset (fun hwarm => absurd hwarm (by decide)) h.nodup
    hstart, ?_⟩
  obtain ⟨record, hrecord, hactive⟩ := h.running
  cases hstart with
  | reused => exact h.running
  | routed _ _ _ => exact h.running
  | @shown shownRecord new hshown _ _ =>
    obtain ⟨hmem, hb, ha, hrunning⟩ := existingRunningRecord_spec hshown
    by_cases hself : asset.assetId = assetId
    · subst hself
      obtain rfl := Option.some.inj (hrecord.symm.trans hshown)
      refine ⟨_, existing_upsert_self (w := w.replaceRoutes new) hrecord rfl
        (runs_iff.mpr ⟨hb, ha, hrunning⟩), ?_⟩
      exact (activeConfigurations_hidden _ _).trans hactive
    · -- an id names one record, which is of the other asset
      refine ⟨record, existing_upsert_ne (w := w.replaceRoutes new) hrecord ?_, hactive⟩
      intro r hr hid
      obtain rfl := eq_of_runtimeId h.nodup hr hmem hid
      have hnot : r.runs bindingId assetId = false :=
        Bool.eq_false_iff.mpr fun hruns => hself (ha.symm.trans (runs_iff.mp hruns).2.1)
      exact ⟨hnot, hnot⟩
  | @launched _ settings new hvacated _ _ _ =>
    cases hvacated with
    | @kept removals =>
      refine ⟨record, existing_upsert_ne (w := World.replaceRoutes { w with removals } new)
        hrecord ?_, hactive⟩
      exact fun r hr hid => absurd hid (fresh_ne (w := { w with removals }) hfresh hr)
    | stopped hreplaces _ => exact absurd hreplaces (by decide)
  | @failed _ settings hvacated _ =>
    cases hvacated with
    | @kept removals =>
      refine ⟨record, existing_upsert_ne (w := { w with removals }) hrecord ?_, hactive⟩
      exact fun r hr hid => absurd hid (fresh_ne (w := { w with removals }) hfresh hr)
    | stopped hreplaces _ => exact absurd hreplaces (by decide)

/-! ### The steps of a configure action -/

/-- What runs is not the concern of the binding store. -/
def IgnoresBindings (J : World → Prop) : Prop := ∀ w bindings, J w → J { w with bindings }

/-- An operation on a stored binding returns it under its id, with all it has revealed. -/
theorem exec_callBinding (host : Host) {op : BindingOp} (htarget : op.target = some bindingId)
    {old : BindingRecord} (hold : getByBinding w.bindings bindingId = some old) :
    ∃ new, exec (callBinding host op) w =
        (.ok new, { w with bindings := upsert new w.bindings }) ∧
      getByBinding (upsert new w.bindings) bindingId = some new ∧ Extends op old new := by
  obtain ⟨new, hcall, hextends⟩ :=
    BindingOp.call_of_stored htarget hold ⟨host.ttl, host.now w, host.bindingUuid w⟩
  have hid : new.bindingId = bindingId :=
    hextends.bindingId.trans (bindingId_of_getByBinding hold)
  refine ⟨new, ?_, hid ▸ getByBinding_upsert_self new w.bindings, hextends⟩
  rw [callBinding, exec_bind, exec_get]
  simp only [hcall, answer, exec_bind, exec_pure, exec_modify]

/-- **The target of a revealed configuration**: its unlock returns, and so do its starts. -/
theorem revealTarget_keeps {J : World → Prop} (host : Host) (assetId configurationId : String)
    (targetRuntime : Option Settings) (hrest : IgnoresBindings J)
    (hstart : ∀ {asset : AssetDefinition} {attacker : Option String} {replaces : Bool}
      {w t : World}, asset ∈ host.catalog → (replaces = true → targetRuntime.isSome) → J w →
      Started host bindingId asset attacker false replaces w t → J t)
    {binding : BindingRecord} (hbinding : binding.bindingId = bindingId)
    (target : Option String) :
    Triple (fun w => RevealedIn w bindingId assetId configurationId ∧ J w)
      (revealTarget host bindingId binding target targetRuntime)
      (fun progress w => (RevealedIn w bindingId assetId configurationId ∧ J w) ∧
        progress.binding.bindingId = bindingId) fun _ => False := by
  cases target with
  | none => exact Triple.pure fun w hw => ⟨hw, hbinding⟩
  | some target =>
    have hunlock : Triple (fun w => RevealedIn w bindingId assetId configurationId ∧ J w)
        (applyUnlocks host binding bindingId [target])
        (fun out w => (RevealedIn w bindingId assetId configurationId ∧ J w) ∧
          out.1.bindingId = bindingId) fun _ => False := by
      refine Triple.of_forall ?_
      rintro w ⟨⟨old, hold, hrevealed⟩, hw⟩
      obtain ⟨new, hrun, hnew, hextends⟩ :=
        exec_callBinding host (BindingOp.target_unlockAssets bindingId [target]) hold
      refine (Triple.of_exec (Q := fun updated t => updated = new ∧
        t = { w with bindings := upsert new w.bindings }) hrun ⟨rfl, rfl⟩).bind fun _ =>
          Triple.pure ?_
      rintro _ ⟨rfl, rfl⟩
      exact ⟨⟨⟨_, hnew, hextends.revealed _ _ (Or.inl hrevealed)⟩, hrest _ _ hw⟩,
        bindingId_of_getByBinding hnew⟩
    refine hunlock.bind fun out => Triple.of_and fun hout => (startEach_keeps ?_).bind
      fun _ => Triple.pure fun w hw => ⟨hw, hout⟩
    rintro asset replaces w t hasset _ hreplaces ⟨⟨record, hrecord, hrevealed⟩, hw⟩ hstarted
    rw [hout] at hstarted
    refine ⟨⟨record, by rw [bindings_started hstarted]; exact hrecord, hrevealed⟩,
      hstart hasset (fun hreplaced => ?_) hw hstarted⟩
    obtain ⟨assetId, hoverride⟩ := hreplaces hreplaced
    split at hoverride
    · exact hoverride
    · exact absurd hoverride (by simp)

/-- **How an attachment ends**: there is no running record, its files cannot be written, or it is
written again with the configuration active. -/
theorem exec_attach (host : Host) (assetId configurationId : String) (configuration : Settings)
    {binding : BindingRecord} (hbinding : binding.bindingId = bindingId) (w : World) :
    (existingRunningRecord w bindingId assetId = none ∧
      exec (applyAssetConfiguration host true binding assetId configurationId configuration) w =
        (.ok [], w)) ∨
    (∃ record e, existingRunningRecord w bindingId assetId = some record ∧
      host.artifact w record configurationId configuration = .error e ∧
      exec (applyAssetConfiguration host true binding assetId configurationId configuration) w =
        (.error e, w)) ∨
    ∃ record artifact, existingRunningRecord w bindingId assetId = some record ∧
      host.artifact w record configurationId configuration = .ok artifact ∧
      exec (applyAssetConfiguration host true binding assetId configurationId configuration) w =
        (.ok [configuredRecord record configurationId configuration artifact],
          w.upsertRuntime (configuredRecord record configurationId configuration artifact)) := by
  subst hbinding
  rw [applyAssetConfiguration, if_pos rfl, applyConfiguration, exec_bind, exec_bind, exec_get]
  cases hrecord : existingRunningRecord w binding.bindingId assetId with
  | none => exact Or.inl ⟨rfl, by simp only [hrecord]; rfl⟩
  | some record =>
    refine Or.inr ?_
    cases hartifact : host.artifact w record configurationId configuration with
    | error e =>
      exact Or.inl ⟨record, e, rfl, hartifact, by simp only [hrecord, hartifact]; rfl⟩
    | ok artifact =>
      exact Or.inr ⟨record, artifact, rfl, hartifact, by simp only [hrecord, hartifact]; rfl⟩

/-- At the other of its two places nothing is attached. -/
theorem exec_attach_skipped (configuration : Settings) (binding : BindingRecord) (w : World) :
    exec (applyAssetConfiguration host false binding assetId configurationId configuration) w =
      (.ok [], w) := rfl

/-- A record that has just been configured lists the configuration. -/
theorem lists_configured (hnodup : (runtimeIds w).Nodup) {record : AssetRuntimeRecord}
    (configurationId : String) (configuration artifact : Settings)
    (hrecord : existingRunningRecord w bindingId assetId = some record) :
    Lists bindingId assetId
      (Dict.set (activeConfigurations record.settings) configurationId (.dict configuration))
      (w.upsertRuntime (configuredRecord record configurationId configuration artifact)) := by
  have hruns : record.runs bindingId assetId = true := runs_of_existing hrecord
  exact ⟨nodup_upsert hnodup _, _, existing_upsert_self hrecord rfl hruns,
    activeConfigurations_configured _ _ _ _⟩

theorem listedRunning_configured {record : AssetRuntimeRecord} {configuration artifact : Settings}
    (hrecord : existingRunningRecord w bindingId assetId = some record) :
    ListedRunning
      (w.upsertRuntime (configuredRecord record configurationId configuration artifact))
      bindingId assetId configurationId := by
  have hruns : record.runs bindingId assetId = true := runs_of_existing hrecord
  refine ⟨_, existing_upsert_self hrecord rfl hruns, ?_⟩
  rw [configuredRecord, activeConfigurations_configured, keys_set, mem_addNew]
  exact Or.inr rfl

/-! ### The whole action -/

/-- What a configure action of a stored binding leaves behind. -/
structure Outcome (host : Host) (bindingId assetId configurationId : String)
    (action : ControllerAction) (s t : World) : Prop where
  revealed : RevealedIn t bindingId assetId configurationId
  listed : ListedRunning t bindingId assetId configurationId ↔
    (∃ record artifact,
      existingRunningRecord (attachedIn host bindingId assetId configurationId action s)
        bindingId assetId = some record ∧
      host.artifact (attachedIn host bindingId assetId configurationId action s) record
        configurationId action.configuration = .ok artifact) ∨
    ListedRunning (exec (revealOnly host bindingId assetId configurationId action) s).2
      bindingId assetId configurationId

theorem exec_reveal (host : Host) {old : BindingRecord}
    (hold : getByBinding s.bindings bindingId = some old) (assetId configurationId : String) :
    ∃ binding w, exec (reveal host bindingId assetId configurationId) s = (.ok binding, w) ∧
      binding.bindingId = bindingId ∧ RevealedIn w bindingId assetId configurationId ∧
      w.runtimes = s.runtimes := by
  obtain ⟨binding, hrun, hbinding, hextends⟩ := exec_callBinding host
    (BindingOp.target_revealConfigurations bindingId [(assetId, [configurationId])]) hold
  refine ⟨binding, _, hrun, bindingId_of_getByBinding hbinding, ⟨binding, hbinding, ?_⟩, rfl⟩
  exact hextends.revealed _ _ (Or.inr (by simp [BindingOp.ownConfigurations]))

/-- An unknown binding stops the action before anything is written. -/
theorem exec_reveal_unknown (host : Host) (hold : getByBinding s.bindings bindingId = none)
    (assetId configurationId : String) : exec (reveal host bindingId assetId configurationId) s =
      (.error (bindingNotFound bindingId), s) := by
  have hcall : ∀ c, (BindingOp.revealConfigurations bindingId
      [(assetId, [configurationId])]).call c s.bindings = .error (bindingNotFound bindingId) := by
    intro c
    rw [BindingOp.call, BindingOp.read, hold]
    rfl
  rw [reveal, callBinding, exec_bind, exec_get]
  simp only [hcall, answer, exec_bind, exec_throw]

/-- The target is revealed, and the configuration still is. -/
theorem exec_revealTarget (host : Host) {binding : BindingRecord}
    (hbinding : binding.bindingId = bindingId) (target : Option String)
    (targetRuntime : Option Settings) (hw : RevealedIn w bindingId assetId configurationId) :
    ∃ progress t, exec (revealTarget host bindingId binding target targetRuntime) w =
      (.ok progress, t) ∧ progress.binding.bindingId = bindingId ∧
      RevealedIn t bindingId assetId configurationId := by
  obtain ⟨progress, t, hrun, ⟨hrevealed, _⟩, hid⟩ :=
    (revealTarget_keeps (J := fun _ => True) host assetId configurationId targetRuntime
      (fun _ _ h => h) (fun _ _ h _ => h) hbinding target).returns ⟨hw, trivial⟩
  exact ⟨progress, t, hrun, hid, hrevealed⟩

/-- Where no runtime is replaced, the running record lists what it did. -/
theorem exec_revealTarget_lists (hfresh : host.Fresh) {binding : BindingRecord}
    (hbinding : binding.bindingId = bindingId) (target : Option String) {active : Settings}
    (hw : RevealedIn w bindingId assetId configurationId)
    (hactive : Lists bindingId assetId active w) :
    ∃ progress t, exec (revealTarget host bindingId binding target none) w = (.ok progress, t) ∧
      RevealedIn t bindingId assetId configurationId ∧ Lists bindingId assetId active t := by
  have hkeeps := revealTarget_keeps (J := Lists bindingId assetId active) host assetId
    configurationId none (fun _ _ h => ⟨h.nodup, h.running⟩) ?_ hbinding target
  · obtain ⟨progress, t, hrun, ⟨hrevealed, hlists⟩, _⟩ := hkeeps.returns ⟨hw, hactive⟩
    exact ⟨progress, t, hrun, hrevealed, hlists⟩
  · intro asset attacker replaces v t hasset hreplaces h hstarted
    rw [Bool.eq_false_iff.mpr fun hreplaced => absurd (hreplaces hreplaced) (by simp)] at hstarted
    exact lists_started hfresh hasset h hstarted

section Before

variable {action : ControllerAction} {binding : BindingRecord}

/-- Without a target runtime, the attachment comes before the starts. -/
theorem exec_configureAction_before
    (hruntime : configurationTargetRuntime action.configuration = none)
    (hreveal : exec (reveal host bindingId assetId configurationId) s = (.ok binding, w))
    {configured : List AssetRuntimeRecord} {u : World}
    (hattach : exec (applyAssetConfiguration host true binding assetId configurationId
      action.configuration) w = (.ok configured, u))
    {progress : Progress}
    (htarget : exec (revealTarget host bindingId binding (given action.targetAssetId) none) u =
      (.ok progress, t)) :
    (exec (configureAction host bindingId assetId configurationId action) s).2 = t := by
  rw [reveal] at hreveal
  simp only [configureAction, exec_bind, hreveal, hruntime, Option.isNone_none,
    Option.isSome_none, hattach, htarget, exec_attach_skipped, exec_pure]

/-- An attachment that raises ends it. -/
theorem exec_configureAction_raised
    (hruntime : configurationTargetRuntime action.configuration = none)
    (hreveal : exec (reveal host bindingId assetId configurationId) s = (.ok binding, w))
    {e : PyError}
    (hattach : exec (applyAssetConfiguration host true binding assetId configurationId
      action.configuration) w = (.error e, w)) :
    (exec (configureAction host bindingId assetId configurationId action) s).2 = w := by
  rw [reveal] at hreveal
  simp only [configureAction, exec_bind, hreveal, hruntime, Option.isNone_none, hattach]

/-- **Without a target runtime** the configuration is attached before the target is started. -/
theorem outcome_before (hruntime : configurationTargetRuntime action.configuration = none)
    (hfresh : host.Fresh) (hnodup : (runtimeIds s).Nodup) {old : BindingRecord}
    (hold : getByBinding s.bindings bindingId = some old) :
    Outcome host bindingId assetId configurationId action s
      (exec (configureAction host bindingId assetId configurationId action) s).2 := by
  obtain ⟨binding, w, hreveal, hbinding, hrevealed, hruntimes⟩ :=
    exec_reveal host hold assetId configurationId
  have hattached : attachedIn host bindingId assetId configurationId action s = w := by
    rw [attachedIn, hruntime, if_neg (by simp), hreveal]
  have honly : exec (revealOnly host bindingId assetId configurationId action) s =
      exec (revealTarget host bindingId binding (given action.targetAssetId) none) w := by
    rw [revealOnly, exec_bind, hreveal, hruntime]
  have hnodup : (runtimeIds w).Nodup := by
    rw [runtimeIds, hruntimes]
    exact hnodup
  rcases exec_attach host assetId configurationId action.configuration hbinding w with
    ⟨hrecord, hattach⟩ | ⟨record, e, hrecord, hartifact, hattach⟩ |
    ⟨record, artifact, hrecord, hartifact, hattach⟩
  · -- nothing runs: the action is a reveal and no more
    obtain ⟨progress, t, htarget, _, ht⟩ :=
      exec_revealTarget host hbinding (given action.targetAssetId) none hrevealed
    rw [exec_configureAction_before hruntime hreveal hattach htarget]
    refine ⟨ht, ?_⟩
    rw [hattached, honly, htarget, hrecord]
    simp
  · -- the files cannot be written: the action ends here, and the starts would list no more
    have hactive : Lists bindingId assetId (activeConfigurations record.settings) w :=
      ⟨hnodup, record, hrecord, rfl⟩
    obtain ⟨progress, t, htarget, _, ht⟩ := exec_revealTarget_lists hfresh hbinding
      (given action.targetAssetId) hrevealed hactive
    rw [exec_configureAction_raised hruntime hreveal hattach]
    refine ⟨hrevealed, ?_⟩
    rw [hattached, honly, htarget, listedRunning_iff hactive, listedRunning_iff ht, hrecord]
    simp [hartifact]
  · -- what has been attached is still listed after the starts
    have hactive := lists_configured hnodup configurationId action.configuration artifact hrecord
    have hconfigured : RevealedIn
        (w.upsertRuntime (configuredRecord record configurationId action.configuration artifact))
        bindingId assetId configurationId := hrevealed
    obtain ⟨progress, t, htarget, hrevealed, ht⟩ := exec_revealTarget_lists hfresh hbinding
      (given action.targetAssetId) hconfigured hactive
    rw [exec_configureAction_before hruntime hreveal hattach htarget]
    refine ⟨hrevealed, ?_⟩
    rw [hattached, listedRunning_iff ht, keys_set, mem_addNew]
    exact ⟨fun _ => Or.inl ⟨record, artifact, hrecord, hartifact⟩, fun _ => Or.inr rfl⟩

end Before

/-- **With a target runtime** the configuration is attached after the starts. -/
theorem outcome_after {action : ControllerAction} {targetRuntime : Settings}
    (hruntime : configurationTargetRuntime action.configuration = some targetRuntime)
    {old : BindingRecord} (hold : getByBinding s.bindings bindingId = some old) :
    Outcome host bindingId assetId configurationId action s
      (exec (configureAction host bindingId assetId configurationId action) s).2 := by
  obtain ⟨binding, w, hreveal, hbinding, hrevealed, _⟩ :=
    exec_reveal host hold assetId configurationId
  obtain ⟨progress, t, htarget, hid, ht⟩ :=
    exec_revealTarget host hbinding (given action.targetAssetId) (some targetRuntime) hrevealed
  have honly : exec (revealOnly host bindingId assetId configurationId action) s =
      (.ok progress, t) := by
    rw [revealOnly, exec_bind, hreveal, hruntime]
    exact htarget
  have hattached : attachedIn host bindingId assetId configurationId action s = t := by
    rw [attachedIn, hruntime, if_pos (by simp), honly]
  rw [reveal] at hreveal
  have hrun : ∀ {r u}, exec (applyAssetConfiguration host true progress.binding assetId
        configurationId action.configuration) t = (r, u) →
      (exec (configureAction host bindingId assetId configurationId action) s).2 = u := by
    intro r u hattach
    cases r <;> simp only [configureAction, exec_bind, hreveal, hruntime, Option.isNone_some,
      Option.isSome_some, hattach, htarget, exec_attach_skipped, exec_pure]
  rcases exec_attach host assetId configurationId action.configuration hid t with
    ⟨hrecord, hattach⟩ | ⟨record, e, hrecord, hartifact, hattach⟩ |
    ⟨record, artifact, hrecord, hartifact, hattach⟩
  · rw [hrun hattach]
    refine ⟨ht, ?_⟩
    rw [hattached, honly, hrecord]
    simp
  · rw [hrun hattach]
    refine ⟨ht, ?_⟩
    rw [hattached, honly, hrecord]
    simp [hartifact]
  · rw [hrun hattach]
    refine ⟨ht, fun _ => Or.inl ?_, fun _ => listedRunning_configured hrecord⟩
    rw [hattached]
    exact ⟨record, artifact, hrecord, hartifact⟩

/-- **A configuration that an action reveals is listed as active exactly when the action takes
effect.** -/
theorem takesEffect_iff (hfresh : host.Fresh) (hnodup : (runtimeIds s).Nodup)
    {action : ControllerAction} (htype : action.actionType = .configure)
    (hasset : given action.assetId = some assetId)
    (hconfiguration : given action.configurationId = some configurationId)
    {binding : BindingRecord} (ht : t = (exec (applyAction host bindingId binding action) s).2) :
    (¬ RevealedIn s bindingId assetId configurationId →
      RevealedIn t bindingId assetId configurationId →
      ListedRunning t bindingId assetId configurationId) ↔
    TakesEffect host bindingId assetId configurationId action s := by
  have ht : t = (exec (configureAction host bindingId assetId configurationId action) s).2 := by
    rw [ht, applyAction, htype, hasset, hconfiguration]
  cases hold : getByBinding s.bindings bindingId with
  | none =>
    have hraised := exec_reveal_unknown host hold assetId configurationId
    rw [reveal] at hraised
    have hsame : t = s := by rw [ht, configureAction, exec_bind, hraised]
    exact ⟨fun _ => .unknown hold, fun _ hnot hrevealed => absurd (hsame ▸ hrevealed) hnot⟩
  | some old =>
    have houtcome : Outcome host bindingId assetId configurationId action s t := by
      rw [ht]
      cases hruntime : configurationTargetRuntime action.configuration with
      | none => exact outcome_before hruntime hfresh hnodup hold
      | some targetRuntime => exact outcome_after hruntime hold
    constructor
    · intro h
      by_cases hknown : RevealedIn s bindingId assetId configurationId
      · exact .known hknown
      · rcases houtcome.listed.mp (h hknown houtcome.revealed) with
          ⟨record, artifact, hrecord, hartifact⟩ | hlisted
        · exact .attached hrecord hartifact
        · exact .listed hlisted
    · intro h hnot _
      cases h with
      | unknown hnone => exact absurd (hnone.symm.trans hold) (by simp)
      | known hknown => exact absurd hknown hnot
      | attached hrecord hartifact =>
        exact houtcome.listed.mpr (Or.inl ⟨_, _, hrecord, hartifact⟩)
      | listed hlisted => exact houtcome.listed.mpr (Or.inr hlisted)

end Configure

/-! ### Two configurations of one repository -/

/-- The binding of the unlocked repository. -/
def unlockedBinding : BindingRecord where
  bindingId := "u"
  attackerKey := "198.51.100.7"
  backendInstanceId := "ns-u"
  status := .active
  firstSeenTs := .utc 1767225600000000
  lastSeenTs := .utc 1767225600000000
  ttlExpiresAt := .utc 1767830400000000
  volumeRef := some "vol-u"
  unlockedAssets := ["git-internal"]
  revealedConfigurations := []

/-- A configuration of the repository, which may put another container in its place. -/
def configureGit (configurationId : String) (target : Option String) (configuration : Settings) :
    ControllerAction where
  actionType := .configure
  bindingId := "u"
  assetId := some "git-internal"
  configurationId := some configurationId
  targetAssetId := target
  configuration
  reason := "configuration selected"

def configuredWorld (host : Host) (action : ControllerAction) : World :=
  (exec (applyAction host "u" unlockedBinding action) (unlockedWorld "git-internal")).2

theorem configuredWorld_eq (host : Host) (action : ControllerAction) :
    configuredWorld host action =
      (exec (applyAction host "u" unlockedBinding action) (unlockedWorld "git-internal")).2 := by
  rw [configuredWorld]

theorem unlockedBinding_stored :
    getByBinding (unlockedWorld "git-internal").bindings "u" = some unlockedBinding := by
  decide +kernel

theorem unlockedWorld_unrevealed (configurationId : String) :
    ¬ RevealedIn (unlockedWorld "git-internal") "u" "git-internal" configurationId := by
  rintro ⟨record, hrecord, hrevealed⟩
  obtain rfl := Option.some.inj (unlockedBinding_stored.symm.trans hrecord)
  exact absurd hrevealed (by simp [BindingRecord.revealedFor, unlockedBinding])

theorem nodup_unlockedWorld : (runtimeIds (unlockedWorld "git-internal")).Nodup := by
  decide +kernel

/-- The binding as it is stored once a configuration is revealed. -/
def revealedBinding (configurationId : String) : BindingRecord :=
  { unlockedBinding with revealedConfigurations := [("git-internal", [configurationId])] }

/-- A note for the running repository is revealed and listed. -/
theorem note_listed :
    ListedRunning (configuredWorld (quietHost gitCatalog) (configureGit "note" none []))
      "u" "git-internal" "note" := by
  have hstored : getByBinding (configuredWorld (quietHost gitCatalog)
      (configureGit "note" none [])).bindings "u" = some (revealedBinding "note") := by
    decide +kernel
  have hruns : (existingRunningRecord (attachedIn (quietHost gitCatalog) "u" "git-internal" "note"
      (configureGit "note" none []) (unlockedWorld "git-internal")) "u"
      "git-internal").isSome = true := by decide +kernel
  obtain ⟨record, hrecord⟩ := Option.isSome_iff_exists.mp hruns
  have heffect : TakesEffect (quietHost gitCatalog) "u" "git-internal" "note"
      (configureGit "note" none []) (unlockedWorld "git-internal") := .attached hrecord rfl
  exact (takesEffect_iff (quietHost_fresh gitCatalog) nodup_unlockedWorld rfl rfl rfl
    (configuredWorld_eq _ _)).mpr heffect (unlockedWorld_unrevealed _)
      ⟨_, hstored, by decide +kernel⟩

/-- A deeper repository in place of the running one. -/
def deepenGit : ControllerAction :=
  configureGit "deep" (some "git-internal") [("target_runtime", .dict deepRuntime)]

/-- **A burnt configuration**: the container that should take the place of the repository does not
start, and the configuration counts as revealed with no record that lists it. -/
theorem burnt_configuration : ¬ ∀ (host : Host) (s t : World)
    (bindingId assetId configurationId : String) (action : ControllerAction)
    (binding : BindingRecord), host.Fresh → (runtimeIds s).Nodup →
    action.actionType = .configure → given action.assetId = some assetId →
    given action.configurationId = some configurationId →
    t = (exec (applyAction host bindingId binding action) s).2 →
    ¬ RevealedIn s bindingId assetId configurationId →
    RevealedIn t bindingId assetId configurationId →
    ListedRunning t bindingId assetId configurationId := by
  intro h
  have hbroken : brokenHost.Fresh := ⟨fun _ => freshId_notMem _, fun _ => freshId_notMem _⟩
  have hstored : getByBinding (configuredWorld brokenHost deepenGit).bindings "u" =
      some (revealedBinding "deep") := by decide +kernel
  have hnone : (existingRunningRecord (configuredWorld brokenHost deepenGit) "u"
      "git-internal").isNone = true := by decide +kernel
  obtain ⟨record, hrecord, _⟩ := h brokenHost (unlockedWorld "git-internal")
    (configuredWorld brokenHost deepenGit) "u" "git-internal" "deep" deepenGit unlockedBinding
    hbroken nodup_unlockedWorld rfl rfl rfl (configuredWorld_eq _ _) (unlockedWorld_unrevealed _)
    ⟨_, hstored, by decide +kernel⟩
  exact absurd hrecord (by rw [Option.isNone_iff_eq_none.mp hnone]; simp)

end Honeynet.Orchestrator
