import Xv6.Kernel.Lifecycle

namespace Xv6
namespace Kernel

open Conc Function

/-!
# The processes form one tree

That the parent of a process is alive does not exclude a cycle of parents.  Here
the links are followed upwards.  A step gives a new link only to a process that
is nobody's parent, or hangs a process under `initproc`, and so every chain of
parents ends there.
-/

/-- Following parents from the slot ends at `initproc`. -/
inductive Line (parent : Slot -> Option Slot) : Slot -> Prop where
  | root : Line parent initproc
  | child {slot above : Slot} (linked : parent slot = some above) (line : Line parent above) :
      Line parent slot

section Line

variable {parent : Slot -> Option Slot} {slot other above : Slot}

/-- A slot that is nobody's parent may change its own link. -/
theorem Line.leaf (line : Line parent other) (childless : ∀ child, parent child ≠ some slot)
    (different : other ≠ slot) (link : Option Slot) : Line (update parent slot link) other := by
  induction line with
  | root => exact .root
  | @child low high linked _ ih =>
    apply Line.child
    · rw [update_of_ne different, linked]
    · apply ih
      rintro rfl
      exact childless low linked

/-- A slot may be hung under another one, if its own line still ends. -/
theorem Line.hang (line : Line parent other) (own : Line (update parent slot (some above)) slot) :
    Line (update parent slot (some above)) other := by
  induction line with
  | root => exact .root
  | @child low high linked _ ih =>
    by_cases same : low = slot
    · exact same ▸ own
    · apply Line.child _ ih
      rw [update_of_ne same, linked]

end Line

namespace Tree

variable {H : Type} {tree after : Tree H}

def parent (tree : Tree H) : Slot -> Option Slot := Kin.parent ∘ tree.kin

theorem parent_setKin (slot : Slot) (kin : Kin) :
    (tree.setKin slot kin).parent = update tree.parent slot kin.parent :=
  comp_update Kin.parent tree.kin slot kin

/-- The links of a tree with its root at `initproc`. -/
structure Rooted (tree : Tree H) : Prop where
  root : tree.parent initproc = none
  line : forall slot, tree.parent slot ≠ none -> Line tree.parent slot

variable [DecidableEq H]

/-- What a step does to the links. -/
theorem parent_cases (step : TreeStep tree after) : after.parent = tree.parent ∨
    (∃ slot link, (tree.kin slot).phase ≠ .alive ∧
      (∀ self, link = some self -> (tree.kin self).phase = .alive) ∧
      after.parent = update tree.parent slot link) ∨
    ∃ child, tree.parent child ≠ none ∧
      after.parent = update tree.parent child (some initproc) := by
  have keeps : ∀ {slot : Slot} {kin : Kin}, kin.parent = (tree.kin slot).parent ->
      (tree.setKin slot kin).parent = tree.parent := by
    intro slot kin same
    rw [parent_setKin, same]
    exact update_eq_self slot tree.parent
  cases step with
  | takePid | timer => exact Or.inl rfl
  | alloc hart slot | publish child | exit slot | die slot | waited slot =>
    exact Or.inl (keeps rfl)
  | discard slot gone =>
    exact Or.inr (Or.inl ⟨slot, none, gone.trans_ne Phase.noConfusion, fun _ => nofun,
      parent_setKin ..⟩)
  | reap slot self status different gone =>
    refine Or.inr (Or.inl ⟨slot, none, gone.trans_ne Phase.noConfusion, fun _ => nofun, ?_⟩)
    refine (parent_setKin ..).trans ?_
    rw [parent_setKin, update_comm different]
    exact congrArg (update · slot none) (update_eq_self self tree.parent)
  | link child self building unlinked alive =>
    refine Or.inr (Or.inl ⟨child, some self, building.trans_ne Phase.noConfusion, ?_,
      parent_setKin ..⟩)
    rintro _ ⟨⟩
    exact alive
  | adopt child slot linked =>
    refine Or.inr (Or.inr ⟨child, ?_, parent_setKin ..⟩)
    exact Option.ne_none_iff_exists'.mpr ⟨slot, linked⟩

omit [DecidableEq H] in
theorem Ok.line (ok : tree.Ok) (rooted : tree.Rooted) {slot : Slot}
    (used : (tree.kin slot).phase ≠ .free) (built : (tree.kin slot).phase ≠ .building) :
    Line tree.parent slot := by
  by_cases first : slot = initproc
  · exact first ▸ .root
  · exact rooted.line slot (ok.parented slot first used built)

/-- A step keeps the tree. -/
theorem Rooted.step (rooted : tree.Rooted) (ok : tree.Ok) (step : TreeStep tree after) :
    after.Rooted := by
  rcases parent_cases step with same | ⟨slot, link, gone, alive, same⟩ | ⟨child, linked, same⟩
  · exact ⟨same ▸ rooted.root, same ▸ rooted.line⟩
  · have childless : ∀ child, tree.parent child ≠ some slot := ok.childless gone
    have mortal : initproc ≠ slot := by
      rintro rfl
      exact gone ok.first.2
    refine ⟨?_, fun other => ?_⟩
    · rw [same, update_of_ne mortal, rooted.root]
    · rw [same]
      by_cases own : other = slot
      · subst own
        rw [update_self]
        intro linked
        rcases Option.ne_none_iff_exists'.mp linked with ⟨self, rfl⟩
        have lives := alive self rfl
        apply Line.child (update_self ..)
        refine (ok.line rooted ?_ ?_).leaf childless (fun here => gone (here ▸ lives)) _
        · exact lives.trans_ne Phase.noConfusion
        · exact lives.trans_ne Phase.noConfusion
      · rw [update_of_ne own]
        intro linked
        exact (rooted.line other linked).leaf childless own link
  · have own : Line (update tree.parent child (some initproc)) child :=
      .child (update_self ..) .root
    have mortal : initproc ≠ child := by
      rintro rfl
      exact linked rooted.root
    refine ⟨?_, fun other => ?_⟩
    · rw [same, update_of_ne mortal, rooted.root]
    · rw [same]
      by_cases here : other = child
      · exact fun _ => here ▸ own
      · rw [update_of_ne here]
        exact fun above => (rooted.line other above).hang own

end Tree

section Runs

theorem Proc.used_of_phase {proc : Proc} (building : Proc.phase proc = .building) :
    proc.state = .used := by
  unfold Proc.phase at building
  split at building
  · cases building
  · assumption
  all_goals cases building

variable {H : Type} [DecidableEq H] {setting : Setting H}
  {config : Config (State H) (Thread H) H Label}

theorem Reachable.rooted (reached : Reachable setting config) (few : config.1.issued < 2 ^ 31) :
    config.1.tree.Rooted := by
  refine ((reached.induct (fun state => state.issued < 2 ^ 31 -> state.tree.Ok ∧ state.tree.Rooted)
    (fun _ => ⟨boot_tree_ok, ?_⟩) ?_).2 few).2
  · have none : ∀ slot, (boot : State H).tree.parent slot = none := by
      intro slot
      change ((boot : State H).proc slot).parent = none
      unfold boot
      dsimp only
      split <;> rfl
    exact ⟨none _, fun slot linked => (linked (none slot)).elim⟩
  · intro thread hart before after inv step known few
    rcases step.tree inv with same | moved
    · rw [same]
      have issued : after.issued = before.issued := congrArg Tree.issued same
      exact known (issued ▸ few)
    · have past := known (Nat.lt_of_le_of_lt moved.issued_le few)
      exact ⟨moved.ok past.1 few, past.2.step past.1 moved⟩

/-- While identifiers do not wrap around, for every interleaving: following
parents from any process that is not free or under construction ends at
`initproc`, which has no parent, and all parents on the way are neither free
nor zombies. -/
theorem processes_form_tree (reached : Reachable setting config) (few : config.1.issued < 2 ^ 31) :
    (config.1.proc initproc).parent = none ∧
    (forall slot, (config.1.proc slot).state ≠ .unused -> (config.1.proc slot).state ≠ .used ->
      Line (fun any => (config.1.proc any).parent) slot) ∧
    (forall child above, (config.1.proc child).parent = some above ->
      (config.1.proc above).state ≠ .unused ∧ (config.1.proc above).state ≠ .zombie) := by
  have ok := (reached.family few).1
  have rooted := reached.rooted few
  refine ⟨rooted.root, fun slot used built => ?_, fun child above linked => ?_⟩
  · refine ok.line rooted (mt Proc.unused_of_phase used) (fun building => built ?_)
    exact Proc.used_of_phase building
  · have alive := ok.parents child above linked
    refine ⟨fun free => ?_, fun gone => ?_⟩
    · cases (Proc.phase_free free).symm.trans alive
    · cases (Proc.phase_dead gone).symm.trans alive

/-- A child that the first process has forked. -/
theorem child_in_tree :
    ∃ config, Reachable (twoHarts .DEFAULT) config ∧
      (config.1.proc 1).parent = some initproc ∧
      Line (fun any => (config.1.proc any).parent) 1 := by
  rcases wait_run.reach with ⟨config, reached, ⟨runnable, linked, issued⟩, _⟩
  have few : config.1.issued < 2 ^ 31 := by
    rw [issued]
    decide
  refine ⟨config, reached, linked, (processes_form_tree reached few).2.1 1 ?_ ?_⟩
  · rw [runnable]
    decide
  · rw [runnable]
    decide

end Runs

end Kernel
end Xv6
