import ChatDoc.Foundation.Transition
import ChatDoc.Jobs.Worker
import ChatDoc.Service.Routes
import Mathlib.Data.List.AList

/-!
# Processes that share the world

A deployment is the world together with the processes that run against it.  A
process runs one iteration of a worker's loop or serves one request, and takes
one atomic call at a time; calls of different processes interleave in any
order, any call may raise, any process may be killed between two calls, and
time may pass at any moment.  A process that ends leaves the deployment, and a
worker that goes round its loop is spawned again.
-/

namespace ChatDoc

open Foundation

inductive Activity where
  | worker
  | upload (userId : Nat) (hex : String) (file : UploadFile)
  | delete (userId documentId : Nat)
  | complete (jobId : Nat)
  | fail (jobId : Nat) (error : String)

namespace Activity

def program : Activity -> Proc Unit
  | worker => runForeverBody
  | upload userId hex file => do
      let _ ← uploadDoc userId hex file
      pure ()
  | delete userId documentId => deleteDoc userId documentId
  | complete jobId => ask (.completeJob jobId)
  | fail jobId error => do
      let _ ← failJob jobId error
      pure ()

/-- The document key an upload draws from `uuid4`. -/
def issues : Activity -> List String
  | upload userId hex _ => [docKey userId hex]
  | _ => []

end Activity

/-- What a worker holds once `claim_job` has handed it a job: the row it got
and the `visible_at` that claim set. -/
structure Lease where
  job : JobRow
  expires : Time
deriving DecidableEq

structure Process where
  activity : Activity
  rest : Proc Unit
  lease : Option Lease

namespace Process

def start (activity : Activity) : Process where
  activity := activity
  rest := activity.program
  lease := none

def leaseAfter (now : Time) (lease : Option Lease) :
    (r : Request) -> Except Exn (Reply r) -> Option Lease
  | .claimJob, .ok (some job) =>
      some { job := job, expires := now + seconds visibilityTimeoutS }
  | _, _ => lease

end Process

structure Deployment where
  world : World
  processes : AList fun _ : Nat => Process
  issued : List String

inductive Action where
  | spawn (pid : Nat) (activity : Activity)
  | step (pid : Nat) (fault : Option Exn)
  | crash (pid : Nat)
  | tick (elapsed : Time)

def Action.actor : Action -> Option Nat
  | .step pid _ => some pid
  | _ => none

namespace Deployment

def init : Deployment where
  world :=
    { db := .empty
      blobs := fun _ => none
      now := 0 }
  processes := ∅
  issued := []

def resume (processes : AList fun _ : Nat => Process) (pid : Nat)
    (p : Process) : AList fun _ : Nat => Process :=
  if p.rest.Ended then processes.erase pid else processes.insert pid p

def stepProcess (M : EmbeddingModel) (d : Deployment) (pid : Nat)
    (fault : Option Exn) (p : Process) : Option Deployment :=
  match p.rest with
  | .call r next =>
      let out := d.world.answer M fault r
      some
        { d with
          world := out.2
          processes := resume d.processes pid
            { p with
              rest := next out.1
              lease := Process.leaseAfter d.world.now p.lease r out.1 } }
  | _ => none

/-- One step of the deployment.  Keys drawn from `uuid4` never repeat. -/
def act (M : EmbeddingModel) (d : Deployment) : Action -> Option Deployment
  | .spawn pid activity =>
      if d.processes.lookup pid = none ∧
          ∀ key ∈ activity.issues, key ∉ d.issued then
        some
          { d with
            processes := d.processes.insert pid (.start activity)
            issued := activity.issues ++ d.issued }
      else
        none
  | .step pid fault =>
      (d.processes.lookup pid).bind (stepProcess M d pid fault)
  | .crash pid =>
      if (d.processes.lookup pid).isSome then
        some { d with processes := d.processes.erase pid }
      else
        none
  | .tick elapsed =>
      some { d with world := { d.world with now := d.world.now + elapsed } }

/-!
# Schedules
-/

def answered (pid calls : Nat) : List Action :=
  List.replicate calls (.step pid none)

def uploaded (pid userId : Nat) (hex : String) (file : UploadFile) :
    List Action :=
  .spawn pid (.upload userId hex file) :: answered pid 6

def claimed (pid : Nat) : List Action := .spawn pid .worker :: answered pid 3

def onePage : UploadFile where
  contentType := "application/pdf"
  filename := some "10-K.pdf"
  size := 1024
  contents :=
    { pages :=
        [{ hasText := true
           chunks :=
            [{ pageNum := 0
               chunkType := .prose
               text := "Net revenue was 1,577."
               sectionHeader := none
               unitScale := none
               unitCurrency := none
               unitNote := none
               bbox := none }] }] }

def lengthModel : EmbeddingModel where
  embedTexts := fun texts => texts.map fun text => [text.length]
  length_embedTexts := by simp

/-!
# What a step does
-/

section Steps

variable {M : EmbeddingModel} {d d' : Deployment}

inductive Acted (M : EmbeddingModel) (d : Deployment) :
    Action -> Deployment -> Prop where
  | spawn {pid : Nat} {activity : Activity} :
      d.processes.lookup pid = none ->
      (forall key, key ∈ activity.issues -> key ∉ d.issued) ->
      Acted M d (.spawn pid activity)
        { d with
          processes := d.processes.insert pid (.start activity)
          issued := activity.issues ++ d.issued }
  | step {pid : Nat} {fault : Option Exn} {p : Process} {r : Request}
      {next : Except Exn (Reply r) -> Proc Unit} :
      d.processes.lookup pid = some p -> p.rest = .call r next ->
      Acted M d (.step pid fault)
        { d with
          world := (d.world.answer M fault r).2
          processes := resume d.processes pid
            { p with
              rest := next (d.world.answer M fault r).1
              lease := Process.leaseAfter d.world.now p.lease r
                (d.world.answer M fault r).1 } }
  | crash {pid : Nat} :
      Acted M d (.crash pid) { d with processes := d.processes.erase pid }
  | tick {elapsed : Time} :
      Acted M d (.tick elapsed)
        { d with world := { d.world with now := d.world.now + elapsed } }

theorem acted_of_act {a : Action} (h : act M d a = some d') :
    Acted M d a d' := by
  cases a with
  | spawn pid activity =>
      rw [act, Option.ite_none_right_eq_some] at h
      rcases h with ⟨⟨hpid, hissues⟩, hsome⟩
      cases hsome
      exact .spawn hpid hissues
  | step pid fault =>
      rcases Option.bind_eq_some_iff.mp h with ⟨p, hp, hstep⟩
      unfold stepProcess at hstep
      split at hstep
      · next r next hrest =>
          cases hstep
          exact .step hp hrest
      · cases hstep
  | crash pid =>
      rw [act, Option.ite_none_right_eq_some] at h
      cases h.right
      exact .crash
  | tick elapsed =>
      cases h
      exact .tick

theorem lookup_resume {processes : AList fun _ : Nat => Process}
    {pid pid' : Nat} {p q : Process}
    (h : (resume processes pid p).lookup pid' = some q) :
    (pid' = pid ∧ q = p) ∨ (pid' ≠ pid ∧ processes.lookup pid' = some q) := by
  unfold resume at h
  by_cases hpid : pid' = pid
  · subst hpid
    split at h
    · rw [AList.lookup_erase] at h
      cases h
    · rw [AList.lookup_insert] at h
      cases h
      exact .inl ⟨rfl, rfl⟩
  · right
    split at h
    · rw [AList.lookup_erase_ne hpid] at h
      exact ⟨hpid, h⟩
    · rw [AList.lookup_insert_ne hpid] at h
      exact ⟨hpid, h⟩

theorem lookup_erase {processes : AList fun _ : Nat => Process}
    {pid pid' : Nat} {q : Process}
    (h : (processes.erase pid).lookup pid' = some q) :
    pid' ≠ pid ∧ processes.lookup pid' = some q := by
  by_cases hpid : pid' = pid
  · subst hpid
    rw [AList.lookup_erase] at h
    cases h
  · rw [AList.lookup_erase_ne hpid] at h
    exact ⟨hpid, h⟩

theorem lookup_spawn {processes : AList fun _ : Nat => Process}
    {pid pid' : Nat} {p q : Process}
    (h : (processes.insert pid p).lookup pid' = some q) :
    (pid' = pid ∧ q = p) ∨ (pid' ≠ pid ∧ processes.lookup pid' = some q) := by
  by_cases hpid : pid' = pid
  · subst hpid
    rw [AList.lookup_insert] at h
    cases h
    exact .inl ⟨rfl, rfl⟩
  · rw [AList.lookup_insert_ne hpid] at h
    exact .inr ⟨hpid, h⟩

/-!
# The call of a step
-/

def event (M : EmbeddingModel) (d : Deployment) :
    Action -> Option (Program.Event service)
  | .step pid fault =>
      (d.processes.lookup pid).bind fun p =>
        match p.rest with
        | .call r _ => some ⟨r, (d.world.answer M fault r).1⟩
        | _ => none
  | _ => none

theorem event_step {pid : Nat} {fault : Option Exn} {p : Process}
    {r : Request} {next : Except Exn (Reply r) -> Proc Unit}
    (hp : d.processes.lookup pid = some p) (hrest : p.rest = .call r next) :
    event M d (.step pid fault) =
      some ⟨r, (d.world.answer M fault r).1⟩ := by
  simp [event, hp, hrest]

theorem world_of_acted {a : Action} (h : Acted M d a d') :
    (d'.world.db = d.world.db ∧ d'.world.blobs = d.world.blobs ∧
        d.world.now ≤ d'.world.now ∧
        forall r answer, event M d a = some ⟨r, answer⟩ ->
          exists e, answer = .error e) ∨
      exists pid r, a = .step pid none ∧
        event M d a = some ⟨r, (d.world.exec M r).1⟩ ∧
          d'.world = (d.world.exec M r).2 := by
  cases h with
  | spawn hfree hfresh =>
      left
      refine ⟨rfl, rfl, Nat.le_refl _, ?_⟩
      intro r answer hevent
      cases hevent
  | @step pid fault p r next hp hrest =>
      rw [event_step hp hrest]
      cases fault with
      | none => exact .inr ⟨pid, r, rfl, rfl, rfl⟩
      | some e =>
          left
          refine ⟨rfl, rfl, Nat.le_refl _, ?_⟩
          intro r' answer hevent
          cases hevent
          exact ⟨e, rfl⟩
  | crash =>
      left
      refine ⟨rfl, rfl, Nat.le_refl _, ?_⟩
      intro r answer hevent
      cases hevent
  | tick =>
      left
      refine ⟨rfl, rfl, Nat.le_add_right _ _, ?_⟩
      intro r answer hevent
      cases hevent

end Steps

end Deployment
end ChatDoc
