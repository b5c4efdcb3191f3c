import Honeynet.Profiler.Profile

/-!
# Events in another order

Each event is stored as one batch of evidence.  The profile is rebuilt from the evidence in the
order of time, so the order in which the events come in leaves no trace in it, and the events of
other attackers none either.

* `IngestedEvent`, `runIngests`: a run of the profiler.
* `batchesOf`: what a run stores for one attacker.
* `stored_runIngests`: the evidence and the profile of an attacker after a run.
* `profile_of_batches`: runs that store the same batches end with the same profile.
-/

namespace Honeynet.Profiler

open Collections

/-- An event, with the ids drawn for its evidence and the time of the call. -/
structure IngestedEvent where
  ids : ℕ → String
  request : EvidenceIngestRequest
  now : Int

section Batches

variable {F : Type} (svc : ProfilerService F)

def IngestedEvent.run (store : ProfilerStore F) (call : IngestedEvent) : ProfilerStore F :=
  ingest svc store call.ids call.request call.now

def runIngests (calls : List IngestedEvent) : ProfilerStore F :=
  calls.foldl (IngestedEvent.run svc) {}

/-- The evidence of one call. -/
def IngestedEvent.batch (call : IngestedEvent) : List TechniqueEvidence :=
  requestEvidence svc call.ids call.request

/-- The batches that a run stores for an attacker. -/
def batchesOf (attackerKey : String) (calls : List IngestedEvent) : List (List TechniqueEvidence) :=
  (calls.filter fun call => call.request.attackerKey = attackerKey).map (IngestedEvent.batch svc)

/-- No time occurs in two batches. -/
def DistinctTimes (batches : List (List TechniqueEvidence)) : Prop :=
  batches.Pairwise fun b b' => ∀ e ∈ b, ∀ e' ∈ b', e.ts ≠ e'.ts

variable {svc} {attackerKey : String}

theorem runIngests_append (calls : List IngestedEvent) (call : IngestedEvent) :
    runIngests svc (calls ++ [call]) = call.run svc (runIngests svc calls) := by
  rw [runIngests, List.foldl_append, List.foldl_cons, List.foldl_nil, ← runIngests]

theorem batchesOf_append_self (calls : List IngestedEvent) {call : IngestedEvent}
    (h : call.request.attackerKey = attackerKey) :
    batchesOf svc attackerKey (calls ++ [call]) =
      batchesOf svc attackerKey calls ++ [call.batch svc] := by
  rw [batchesOf, List.filter_append, List.filter_cons_of_pos (by simpa using h), List.filter_nil,
    List.map_append, List.map_singleton, ← batchesOf]

theorem batchesOf_append_of_ne (calls : List IngestedEvent) {call : IngestedEvent}
    (h : call.request.attackerKey ≠ attackerKey) :
    batchesOf svc attackerKey (calls ++ [call]) = batchesOf svc attackerKey calls := by
  rw [batchesOf, List.filter_append, List.filter_cons_of_neg (by simpa using h), List.filter_nil,
    List.append_nil, ← batchesOf]

/-- The attacker's evidence is that of the batches, and its profile, if there is any, is theirs. -/
structure Stored (svc : ProfilerService F) (attackerKey : String)
    (batches : List (List TechniqueEvidence)) (store : ProfilerStore F) : Prop where
  evidence : store.listByAttacker attackerKey = batches.flatten
  none : batches = [] → store.profiles.get? attackerKey = none
  profile : batches ≠ [] → batches.flatten ≠ [] ∧ ∃ now, store.profiles.get? attackerKey =
    some (rebuildProfile svc attackerKey batches.flatten now)

/-- **After a run** the attacker has the evidence of its batches and the profile made of it. -/
theorem stored_runIngests (calls : List IngestedEvent) :
    Stored svc attackerKey (batchesOf svc attackerKey calls) (runIngests svc calls) := by
  induction calls using List.reverseRecOn with
  | nil => exact ⟨rfl, fun _ => rfl, fun h => absurd rfl h⟩
  | append_singleton calls call ih =>
    rw [runIngests_append]
    by_cases hkey : call.request.attackerKey = attackerKey
    · rw [batchesOf_append_self calls hkey]
      have hlist : (call.run svc (runIngests svc calls)).listByAttacker call.request.attackerKey =
          (batchesOf svc attackerKey calls ++ [call.batch svc]).flatten := by
        rw [IngestedEvent.run, listByAttacker_ingest_self, hkey, ih.evidence, List.flatten_append,
          List.flatten_singleton, IngestedEvent.batch]
      refine ⟨hkey ▸ hlist, fun h => absurd h (by simp), fun _ => ⟨?_, call.now, ?_⟩⟩
      · rw [List.flatten_append, List.flatten_singleton]
        exact List.append_ne_nil_of_right_ne_nil _ (mapEvent_ne_nil _ _ _ _)
      · rw [IngestedEvent.run, profiles_ingest, if_pos hkey.symm, ← IngestedEvent.run, hlist]
    · have hne : attackerKey ≠ call.request.attackerKey := fun h => hkey h.symm
      have hprofiles : (call.run svc (runIngests svc calls)).profiles.get? attackerKey =
          (runIngests svc calls).profiles.get? attackerKey := by
        rw [IngestedEvent.run, profiles_ingest, if_neg hne]
      rw [batchesOf_append_of_ne calls hkey]
      refine ⟨?_, fun h => hprofiles.trans (ih.none h), fun h => ?_⟩
      · rw [IngestedEvent.run, listByAttacker_ingest_of_ne svc _ _ hne, ih.evidence]
      · obtain ⟨hevidence, now, hprofile⟩ := ih.profile h
        exact ⟨hevidence, now, hprofiles.trans hprofile⟩

/-- A profile is made of the evidence in the order of time. -/
theorem rebuildProfile_congr {evidences evidences' : List TechniqueEvidence}
    (h : sortedEvidence evidences = sortedEvidence evidences') (now : Int) :
    rebuildProfile svc attackerKey evidences now =
      rebuildProfile svc attackerKey evidences' now := by
  simp only [rebuildProfile, recentEvidence, h]

/-- **Runs that store the same batches for an attacker, in any order and beside anything else, end
with the same profile of it.** -/
theorem profile_of_batches {calls calls' : List IngestedEvent}
    (hsame : (batchesOf svc attackerKey calls).Perm (batchesOf svc attackerKey calls'))
    (htimes : DistinctTimes (batchesOf svc attackerKey calls)) :
    (runIngests svc calls).profiles.get? attackerKey =
      (runIngests svc calls').profiles.get? attackerKey := by
  have hstored : Stored svc attackerKey _ _ := stored_runIngests calls
  have hstored' : Stored svc attackerKey _ _ := stored_runIngests calls'
  by_cases hnil : batchesOf svc attackerKey calls = []
  · rw [hnil] at hsame
    rw [hstored.none hnil, hstored'.none hsame.nil_eq.symm]
  · have hnil' : batchesOf svc attackerKey calls' ≠ [] := by
      intro h
      rw [h] at hsame
      exact hnil hsame.eq_nil
    obtain ⟨hne, now, hprofile⟩ := hstored.profile hnil
    obtain ⟨-, now', hprofile'⟩ := hstored'.profile hnil'
    have hsorted : sortedEvidence (batchesOf svc attackerKey calls).flatten =
        sortedEvidence (batchesOf svc attackerKey calls').flatten :=
      sortedBy_flatten_perm TechniqueEvidence.ts hsame htimes
    rw [hprofile, hprofile', rebuildProfile_now hne attackerKey now now',
      rebuildProfile_congr hsorted]

end Batches

/-! ### Two events -/

/-- A scan or a look around by an attacker, at a time in microseconds. -/
def tagged (attackerKey tag id : String) (ts : Int) : IngestedEvent where
  ids _ := id
  request := {
    attackerKey
    bindingId := "b-1"
    event := {
      ts := .utc ts
      falcoRule := "r"
      priority := "high"
      output := "o"
      tags := [tag]
      outputFields := [("http_path", .str tag)] } }
  now := 0

/-- A scan and a look around come in the other way round, after an event of someone else. -/
theorem reordered_scan : (runIngests sampleProfiler [tagged "198.51.100.7" "T1046" "e-1" 1000000,
      tagged "198.51.100.7" "T1083" "e-2" 2000000]).profiles.get? "198.51.100.7" =
    (runIngests sampleProfiler [tagged "198.51.100.8" "T1059" "e-3" 5000000,
      tagged "198.51.100.7" "T1083" "e-2" 2000000,
      tagged "198.51.100.7" "T1046" "e-1" 1000000]).profiles.get? "198.51.100.7" := by
  refine profile_of_batches ?_ ?_
  · exact List.Perm.swap _ _ _
  · have htimes : ∀ tag id ts, ∀ e ∈ (tagged "198.51.100.7" tag id ts).batch sampleProfiler,
        e.ts = ts := by
      intro tag id ts e he
      obtain ⟨_, _, rfl⟩ := List.mem_mapIdx.mp he
      rfl
    refine List.pairwise_pair.mpr fun e he e' he' => ?_
    rw [htimes _ _ _ e he, htimes _ _ _ e' he']
    decide

end Honeynet.Profiler
