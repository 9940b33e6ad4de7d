import ChangeNotification.CommandLine.Command
import ChangeNotification.Proofs.Project.FileTree
import ChangeNotification.Proofs.Project.Generation

/-! # What commands leave

No command removes an entry of the tree or puts a file in the place of a directory, also where it ends
early. -/

namespace ChangeNotification

variable {tree : FileTree} {w next : Workspace}

/-! ## Effects -/

namespace Effect

theorem growsInto_perform {effect : Effect} (h : effect.perform w = .ok next) :
    w.tree.GrowsInto next.tree := by
  cases effect with
  | say line | warn line =>
      cases h
      exact .refl _
  | makeDirectories path =>
      obtain ⟨made, hmade, rfl⟩ := map_eq_ok_iff.mp h
      exact (FileTree.makeDirectories_spec hmade).1.growsInto
  | writeFile path text =>
      obtain ⟨written, hwritten, rfl⟩ := map_eq_ok_iff.mp h
      obtain ⟨_, _, _, _, _, hputs⟩ := FileTree.writeFile_eq_ok_iff.mp hwritten
      exact hputs.growsInto_of_file

theorem growsInto_leave (effect : Effect) (w : Workspace) :
    w.tree.GrowsInto (effect.leave w).tree := by
  cases effect with
  | makeDirectories path => exact (w.tree.addsDirectories_leftOnWay path).growsInto
  | say line | warn line | writeFile path text => exact .refl _

end Effect

/-! ## Commands -/

/-- However a computation ends, all entries of the tree are still there. -/
def FileTree.IsKeptBy (tree : FileTree) : Except Stop Workspace → Prop
  | .ok after => tree.GrowsInto after.tree
  | .error stop => tree.GrowsInto stop.workspace.tree

theorem FileTree.IsKeptBy.bind {computation : Except Stop Workspace}
    {continuation : Workspace → Except Stop Workspace} (h : tree.IsKeptBy computation)
    (hnext : ∀ w, tree.GrowsInto w.tree → tree.IsKeptBy (continuation w)) :
    tree.IsKeptBy (computation >>= continuation) := by
  cases computation with
  | error stop => exact h
  | ok w => exact hnext w h

theorem Workspace.isKeptBy_perform (blame : Effect → FileError → Failure) (effects : List Effect)
    (h : tree.GrowsInto w.tree) : tree.IsKeptBy (w.perform blame effects) := by
  induction effects generalizing w with
  | nil => exact h
  | cons effect effects ih =>
      rw [perform]
      split
      · rename_i next hnext
        exact ih (h.trans (Effect.growsInto_perform hnext))
      · exact h.trans (effect.growsInto_leave w)

theorem ScaffoldRequest.isKeptBy_unlessThere (path : String) (effects : List Effect)
    (h : tree.GrowsInto w.tree) : tree.IsKeptBy (unlessThere path effects w) := by
  unfold unlessThere
  split
  · exact h
  · exact Workspace.isKeptBy_perform _ _ h

theorem ScaffoldRequest.isKeptBy_scaffold (request : ScaffoldRequest) (directory : String)
    (w : Workspace) : w.tree.IsKeptBy (request.scaffold directory w) := by
  unfold scaffold
  split
  · exact Workspace.isKeptBy_perform _ _ (.refl _)
  · refine (Workspace.isKeptBy_perform _ _ (.refl _)).bind fun w hgreeted => ?_
    refine (isKeptBy_unlessThere _ _ hgreeted).bind fun w hfacts => ?_
    refine (isKeptBy_unlessThere _ _ hfacts).bind fun w hexample => ?_
    exact Workspace.isKeptBy_perform _ _ hexample

theorem SupportSource.isKeptBy_write (outDir : Option String) (directory : String)
    (w : Workspace) : w.tree.IsKeptBy (write outDir directory w) := by
  unfold write
  split
  · exact .refl _
  · exact Workspace.isKeptBy_perform _ _ (.refl _)

theorem GenerationRequest.isKeptBy_run (request : GenerationRequest) (directory : String)
    (w : Workspace) : w.tree.IsKeptBy ((request.run directory w).map Prod.snd) := by
  have hpair (summary : Summary) (computation : Except Stop Workspace) :
      (computation >>= fun w => pure (summary, w)).map Prod.snd = computation := by
    cases computation <;> rfl
  unfold run
  split
  · exact .refl _
  · dsimp only
    split
    · split <;>
      · rw [hpair]
        exact Workspace.isKeptBy_perform _ _ (.refl _)
    · exact .refl _

theorem GenerationRequest.isKeptBy_generate (request : GenerationRequest) (directory : String)
    (w : Workspace) : w.tree.IsKeptBy (request.generate directory w) := by
  have hrun := request.isKeptBy_run directory w
  rw [generate]
  cases hresult : request.run directory w with
  | error stop =>
      rw [hresult] at hrun
      exact hrun
  | ok result =>
      obtain ⟨summary, after⟩ := result
      rw [hresult] at hrun
      change w.tree.IsKeptBy (after.perform Effect.blame [.say "", .say summary.verdict] >>=
        fun w => if summary.failed = 0 then .ok w else .error ⟨w, .incomplete summary.failed⟩)
      refine (Workspace.isKeptBy_perform _ _ hrun).bind fun final hfinal => ?_
      split <;> exact hfinal

/-- However a command ends, all that was in the tree of its project is still there. -/
theorem Command.isKeptBy_run (command : Command) (directory : String) (w : Workspace) :
    w.tree.IsKeptBy (command.run directory w) := by
  cases command with
  | init request => exact request.isKeptBy_scaffold directory w
  | generate request => exact request.isKeptBy_generate directory w
  | support outDir => exact SupportSource.isKeptBy_write outDir directory w

end ChangeNotification
