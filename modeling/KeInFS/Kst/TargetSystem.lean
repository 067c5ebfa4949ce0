import KeInFS.Library.Run
import KeInFS.Kst.Service

namespace KeInFS

inductive TargetRequest
  | write (run : WriteRun)
  | delete (run : DeleteRun)

def TargetRequest.step (handle : ChunkMediaHandle) (t : TargetRouter) (io : Option String) :
    TargetRequest → Option (TargetRouter × TargetRequest)
  | .write run => (run.step handle t io).map fun (t', run') => (t', .write run')
  | .delete run => (run.step handle t io).map fun (t', run') => (t', .delete run')

structure TargetWorld where
  target : TargetRouter
  requests : List TargetRequest

/-- A request arrives, or one in flight takes its next step; `io` is the text of the error when the I/O of the
step fails. -/
inductive TargetAction
  | directWrite (entry : PackedWriteEntry)
  | packedWrite (entries : List PackedWriteEntry)
  | delete (request : DeleteRequest)
  | proceed (index : Nat) (io : Option String)

def TargetWorld.act (handle : ChunkMediaHandle) (w : TargetWorld) : TargetAction → Option TargetWorld
  | .directWrite entry => some { w with requests := w.requests ++ [.write (.start .direct [entry])] }
  | .packedWrite entries => some { w with requests := w.requests ++ [.write (.start .packed entries)] }
  | .delete request => some { w with requests := w.requests ++ [.delete { request }] }
  | .proceed index io =>
    match w.requests[index]? with
    | none => none
    | some request =>
      (request.step handle w.target io).map fun (target, request') => ⟨target, w.requests.set index request'⟩

/-- Requests on one target in any interleaving of their steps. It starts from a recovered index, whose records
the target reads in any order. -/
def targetSystem (handle : ChunkMediaHandle) : LabelledSystem TargetWorld TargetAction where
  initial w := ∃ live entries slots kix, List.Perm entries live.toList ∧
    buildSlotPublications handle.layout handle.layout.keySlots ⟨live, ∅⟩ entries = .ok (slots, kix) ∧
    w.target.kix = kix ∧ w.target.slotPublications = slots ∧ w.target.granuleAllocator = {} ∧ w.requests = []
  enabled w a := (w.act handle a).isSome
  next w a := (w.act handle a).getD w

instance (handle : ChunkMediaHandle) (w : TargetWorld) (a : TargetAction) :
    Decidable ((targetSystem handle).enabled w a) :=
  inferInstanceAs (Decidable ((w.act handle a).isSome = true))

inductive TargetRequest.Transition (handle : ChunkMediaHandle) (t : TargetRouter) (io : Option String) :
    TargetRequest → TargetRouter → TargetRequest → Prop
  | write {run t' run'} (step : run.step handle t io = some (t', run')) : Transition handle t io (.write run) t' (.write run')
  | delete {run t' run'} (step : run.step handle t io = some (t', run')) :
      Transition handle t io (.delete run) t' (.delete run')

inductive TargetWorld.Transition (handle : ChunkMediaHandle) (w : TargetWorld) : TargetAction → TargetWorld → Prop
  | newWrite {a kind entries} (new : ∀ index io, a ≠ .proceed index io) (single : kind = .direct → entries.length ≤ 1) :
      Transition handle w a { w with requests := w.requests ++ [.write (.start kind entries)] }
  | newDelete {a} (new : ∀ index io, a ≠ .proceed index io) (request : DeleteRequest) :
      Transition handle w a { w with requests := w.requests ++ [.delete { request }] }
  | proceed {index io r t' r'} (at_index : w.requests[index]? = some r)
      (step : r.step handle w.target io = some (t', r')) :
      Transition handle w (.proceed index io) ⟨t', w.requests.set index r'⟩

section

variable {handle : ChunkMediaHandle}

theorem TargetRequest.step_cases {t t' : TargetRouter} {io : Option String} {r r' : TargetRequest}
    (h : r.step handle t io = some (t', r')) : TargetRequest.Transition handle t io r t' r' := by
  cases r with
  | write =>
    obtain ⟨_, hstep, hnext⟩ := Option.map_eq_some_iff.mp h
    cases hnext
    exact .write hstep
  | delete =>
    obtain ⟨_, hstep, hnext⟩ := Option.map_eq_some_iff.mp h
    cases hnext
    exact .delete hstep

theorem TargetWorld.act_cases {w w' : TargetWorld} {a : TargetAction} (h : w.act handle a = some w') :
    w.Transition handle a w' := by
  cases a with
  | directWrite => cases h; exact .newWrite (by simp) fun _ => Nat.le_refl 1
  | packedWrite => cases h; exact .newWrite (by simp) nofun
  | delete request => cases h; exact .newDelete (by simp) request
  | proceed =>
    simp only [TargetWorld.act] at h
    split at h
    · cases h
    rename_i hr
    obtain ⟨_, hstep, hnext⟩ := Option.map_eq_some_iff.mp h
    cases hnext
    exact .proceed hr hstep

theorem targetSystem_next {w : TargetWorld} {a : TargetAction} (enabled : (targetSystem handle).enabled w a) :
    w.act handle a = some ((targetSystem handle).next w a) := by
  obtain ⟨_, hact⟩ := Option.isSome_iff_exists.mp enabled
  change w.act handle a = some ((w.act handle a).getD w)
  rw [hact, Option.getD_some]

end

end KeInFS
