import Xv6.Kernel.State
import Mathlib.Data.List.Nodup

namespace Xv6
namespace Kernel

open Function List

/-!
# The family of processes

What `fork`, `exit` and `wait` are for, without locks, harts or the code that
implements them: processes are built under a fresh identifier, linked to the
process that creates them, run, exit with a status, and are collected by their
parent, to which `wait` then returns.  A process that exits first gives its
children to `initproc`.

`TreeStep` lists the moments at which this structure changes, and `Tree.Ok`
is kept by each of them.  That the kernel takes no other steps is a theorem
about its code and is proved elsewhere.
-/

/-- The life of a process.  A process that has exited keeps its status. -/
inductive Phase where
  | free
  | building
  | alive
  | dead (status : Int)
  deriving DecidableEq

structure Kin where
  phase : Phase
  pid : Int
  parent : Option Slot
  /-- The process has called `exit`. -/
  exiting : Bool
  /-- The child that it has collected in a `wait` that has not returned. -/
  got : Option (Int × Int)

def Kin.freed (kin : Kin) : Kin := { kin with phase := .free, pid := 0, parent := none }

inductive Kind where
  | fork
  | exit
  | reap
  deriving DecidableEq

variable {H : Type}

/-- The process that an event happens to, and how. -/
def Event.key : Event H -> Option (Kind × Int)
  | .fork _ child => some (.fork, child)
  | .exit pid _ => some (.exit, pid)
  | .reap _ child _ => some (.reap, child)
  | .waited _ _ _ _ => none
  | .timer _ _ => none

structure Tree (H : Type) where
  kin : Slot -> Kin
  /-- An identifier that has been handed out and not yet stored. -/
  resv : H -> Option Int
  issued : Nat
  nextpid : Int
  log : List (Event H)

/-- The process has created the child, or is the first process and has
inherited the child from a creator that called `exit`. -/
def Fathered (log : List (Event H)) (parent child : Int) : Prop :=
  .fork parent child ∈ log ∨
    parent = 1 ∧ ∃ creator status, .fork creator child ∈ log ∧ .exit creator status ∈ log

theorem Fathered.append {log : List (Event H)} {parent child : Int}
    (fathered : Fathered log parent child) (events : List (Event H)) :
    Fathered (events ++ log) parent child := by
  rcases fathered with forked | ⟨first, creator, status, forked, exited⟩
  · exact Or.inl (mem_append_right _ forked)
  · exact Or.inr ⟨first, creator, status, mem_append_right _ forked, mem_append_right _ exited⟩

namespace Tree

def keys (tree : Tree H) : List (Kind × Int) := tree.log.filterMap Event.key

def setKin (tree : Tree H) (slot : Slot) (kin : Kin) : Tree H :=
  { tree with kin := Function.update tree.kin slot kin }

def note (tree : Tree H) (event : Event H) : Tree H :=
  { tree with log := event :: tree.log }

variable [DecidableEq H]

def setResv (tree : Tree H) (hart : H) (resv : Option Int) : Tree H :=
  { tree with resv := Function.update tree.resv hart resv }

def takePid (tree : Tree H) (hart : H) : Tree H :=
  { tree with
    resv := Function.update tree.resv hart (some tree.nextpid)
    nextpid := int32 (tree.nextpid + 1)
    issued := tree.issued + 1 }

end Tree

variable [DecidableEq H]

inductive TreeStep (tree : Tree H) : Tree H -> Prop where
  | takePid (hart : H) (none : tree.resv hart = none) : TreeStep tree (tree.takePid hart)
  | alloc (hart : H) (slot : Slot) (pid : Int) (free : (tree.kin slot).phase = .free)
      (reserved : tree.resv hart = some pid) :
      TreeStep tree ((tree.setResv hart none).setKin slot
        ⟨.building, pid, (tree.kin slot).parent, false, none⟩)
  | discard (slot : Slot) (building : (tree.kin slot).phase = .building)
      (unlinked : (tree.kin slot).parent = none) :
      TreeStep tree (tree.setKin slot (tree.kin slot).freed)
  | link (child self : Slot) (building : (tree.kin child).phase = .building)
      (unlinked : (tree.kin child).parent = none) (alive : (tree.kin self).phase = .alive) :
      TreeStep tree ((tree.setKin child { tree.kin child with parent := some self }).note
        (.fork (tree.kin self).pid (tree.kin child).pid))
  | publish (child self : Slot) (building : (tree.kin child).phase = .building)
      (linked : (tree.kin child).parent = some self) :
      TreeStep tree (tree.setKin child { tree.kin child with phase := .alive })
  | adopt (child slot : Slot) (parent : (tree.kin child).parent = some slot)
      (mortal : slot ≠ initproc) (status : Int)
      (called : .exit (tree.kin slot).pid status ∈ tree.log) :
      TreeStep tree (tree.setKin child { tree.kin child with parent := some initproc })
  | exit (slot : Slot) (status : Int) (alive : (tree.kin slot).phase = .alive)
      (first : (tree.kin slot).exiting = false) (empty : (tree.kin slot).got = none) :
      TreeStep tree ((tree.setKin slot { tree.kin slot with exiting := true }).note
        (.exit (tree.kin slot).pid status))
  | die (slot : Slot) (status : Int) (alive : (tree.kin slot).phase = .alive)
      (mortal : slot ≠ initproc) (empty : (tree.kin slot).got = none)
      (childless : forall child, (tree.kin child).parent ≠ some slot)
      (called : .exit (tree.kin slot).pid status ∈ tree.log) :
      TreeStep tree (tree.setKin slot { tree.kin slot with phase := .dead status })
  | reap (slot self : Slot) (status : Int) (different : slot ≠ self)
      (dead : (tree.kin slot).phase = .dead status)
      (child : (tree.kin slot).parent = some self) (empty : (tree.kin self).got = none) :
      TreeStep tree (((tree.setKin slot (tree.kin slot).freed).setKin self { tree.kin self with
        got := some ((tree.kin slot).pid, status) }).note
          (.reap (tree.kin self).pid (tree.kin slot).pid status))
  | waited (self : Slot) (addr : Bool) (value : Int) (out : Option Int)
      (alive : (tree.kin self).phase = .alive)
      (delivers : Delivered (tree.kin self).got out addr value) :
      TreeStep tree ((tree.setKin self { tree.kin self with got := none }).note
        (.waited (tree.kin self).pid addr value out))
  | timer (hart : H) (yielded : Bool) : TreeStep tree (tree.note (.timer hart yielded))

/-! ## The invariant -/

omit [DecidableEq H] in
/-- What holds of the family while identifiers do not wrap around. -/
structure Tree.Ok (tree : Tree H) : Prop where
  next : tree.nextpid = int32 (tree.issued + 1)
  named : forall slot, (tree.kin slot).phase ≠ .free ->
    1 ≤ (tree.kin slot).pid ∧ (tree.kin slot).pid ≤ tree.issued
  distinct : forall first second, (tree.kin first).phase ≠ .free ->
    (tree.kin second).phase ≠ .free -> (tree.kin first).pid = (tree.kin second).pid ->
    first = second
  reserved : forall hart pid, tree.resv hart = some pid -> 1 ≤ pid ∧ pid ≤ tree.issued
  unnamed : forall hart pid, tree.resv hart = some pid ->
    forall slot, (tree.kin slot).phase ≠ .free -> (tree.kin slot).pid ≠ pid
  unknown : forall hart pid, tree.resv hart = some pid -> forall kind, (kind, pid) ∉ tree.keys
  apart : forall first second pid, tree.resv first = some pid -> tree.resv second = some pid ->
    first = second
  known : forall kind pid, (kind, pid) ∈ tree.keys -> pid ≤ tree.issued
  first : (tree.kin initproc).pid = 1 ∧ (tree.kin initproc).phase = .alive
  orphan : forall slot, (tree.kin slot).phase = .free -> (tree.kin slot).parent = none
  parents : forall child parent, (tree.kin child).parent = some parent ->
    (tree.kin parent).phase = .alive
  parented : forall slot, slot ≠ initproc -> (tree.kin slot).phase ≠ .free ->
    (tree.kin slot).phase ≠ .building -> (tree.kin slot).parent ≠ none
  descends : forall child parent, (tree.kin child).parent = some parent ->
    Fathered tree.log (tree.kin parent).pid (tree.kin child).pid
  unforked : forall slot, (tree.kin slot).phase ≠ .free -> (tree.kin slot).parent = none ->
    (.fork, (tree.kin slot).pid) ∉ tree.keys
  exited : forall slot, (tree.kin slot).phase ≠ .free ->
    (.exit, (tree.kin slot).pid) ∈ tree.keys -> (tree.kin slot).exiting = true
  dead : forall slot status, (tree.kin slot).phase = .dead status ->
    .exit (tree.kin slot).pid status ∈ tree.log
  reaped : forall slot, (tree.kin slot).phase ≠ .free -> (.reap, (tree.kin slot).pid) ∉ tree.keys
  once : tree.keys.Nodup
  delivered : forall newer older parent child status,
    tree.log = newer ++ .reap parent child status :: older ->
    .exit child status ∈ older ∧ Fathered older parent child

/-! ## Every step keeps the invariant -/

namespace Tree

variable {tree : Tree H} {hart : H} {slot child self : Slot} {pid status : Int}

section Keys

variable (tree : Tree H) (hart : H) (slot : Slot) (kin : Kin) (resv : Option Int) (event : Event H)

theorem keys_setResv : (tree.setResv hart resv).keys = tree.keys := rfl

omit [DecidableEq H]

theorem keys_setKin : (tree.setKin slot kin).keys = tree.keys := rfl

end Keys

omit [DecidableEq H] in
/-- What may be noted while the process in a slot changes: nothing that has a key,
or the first event of its kind about this process. -/
structure Noted (tree : Tree H) (slot : Slot) (kin : Kin) (event : Option (Event H)) : Prop where
  key : forall kind pid, event.bind Event.key = some (kind, pid) ->
    (tree.kin slot).phase ≠ .free ∧ (tree.kin slot).pid = pid ∧ (kind, pid) ∉ tree.keys ∧
      (kin.phase ≠ .free -> kind ≠ .reap ∧ (kind = .exit -> kin.exiting = true) ∧
        (kind = .fork -> kin.parent ≠ none))
  delivered : forall parent child status, event = some (.reap parent child status) ->
    .exit child status ∈ tree.log ∧ Fathered tree.log parent child

omit [DecidableEq H] in
theorem Noted.silent {kin : Kin} {event : Option (Event H)} (other : event.bind Event.key = none) :
    tree.Noted slot kin event where
  key := by simp [other]
  delivered := by
    rintro _ _ _ rfl
    cases other

section

variable (ok : tree.Ok)

include ok

theorem Ok.takePid (few : tree.issued + 1 < 2 ^ 31) : (tree.takePid hart).Ok := by
  have fresh : tree.nextpid = tree.issued + 1 := by
    rw [ok.next]
    exact int32_eq_self (by omega) (by omega)
  refine { ok with
    next := ?_
    named := fun any used => ?_
    reserved := fun any pid => ?_
    unnamed := fun any pid => ?_
    unknown := fun any pid => ?_
    apart := fun any other pid => ?_
    known := fun kind pid member => ?_ }
  · show int32 (tree.nextpid + 1) = int32 ((tree.issued + 1 : Nat) + 1)
    rw [fresh]
    push_cast
    rfl
  · have := ok.named any used
    simp only [Tree.takePid]
    omega
  · have := ok.reserved any pid
    simp only [Tree.takePid, update_apply]
    grind
  · have := ok.unnamed any pid
    have := ok.named
    simp only [Tree.takePid, update_apply]
    grind
  · have := ok.unknown any pid
    have := ok.known
    have keys : (tree.takePid hart).keys = tree.keys := rfl
    simp only [↓keys, Tree.takePid, update_apply]
    grind
  · have := ok.apart any other pid
    have := ok.reserved any pid
    have := ok.reserved other pid
    simp only [Tree.takePid, update_apply]
    grind
  · have := ok.known kind pid member
    simp only [Tree.takePid]
    omega

theorem Ok.alloc (free : (tree.kin slot).phase = .free) (reserved : tree.resv hart = some pid) :
    ((tree.setResv hart none).setKin slot
      ⟨.building, pid, (tree.kin slot).parent, false, none⟩).Ok := by
  have orphan := ok.orphan slot free
  have unknown := ok.unknown hart pid reserved
  have unnamed := ok.unnamed hart pid reserved
  refine { ok with
    named := fun any => ?_
    distinct := fun any other => ?_
    reserved := fun any pid => ?_
    unnamed := fun any pid => ?_
    unknown := fun any pid => ?_
    apart := fun any other pid => ?_
    first := ?_
    orphan := fun any => ?_
    parents := fun any other => ?_
    parented := fun any => ?_
    descends := fun any other => ?_
    unforked := fun any => ?_
    exited := fun any => ?_
    dead := fun any status => ?_
    reaped := fun any => ?_ }
  all_goals simp only [↓keys_setKin, ↓keys_setResv, setKin, setResv, update_apply]
  · have known := ok.named any
    have other := ok.reserved hart pid
    grind
  · grind [ok.distinct any other]
  · have known := ok.reserved any pid
    grind
  · have known := ok.unnamed any pid
    have other := ok.apart hart any
    grind
  · grind [ok.unknown any pid]
  · grind [ok.apart any other pid]
  · grind [ok.first]
  · grind [ok.orphan any]
  · grind [ok.parents any other]
  · grind [ok.parented any]
  · have known := ok.descends any other
    have other := ok.parents any other
    grind
  · grind [ok.unforked any]
  · grind [ok.exited any]
  · grind [ok.dead any status]
  · grind [ok.reaped any]

omit [DecidableEq H]

/-- Only a live process has children. -/
theorem Ok.childless (gone : (tree.kin slot).phase ≠ .alive) (child : Slot) :
    (tree.kin child).parent ≠ some slot :=
  fun parent => gone (ok.parents child slot parent)

/-- A change of one process that keeps its identifier or frees it.  It may die
only without children, and a new parent must be a live one that fits the log. -/
theorem Ok.change (event : Option (Event H)) {kin : Kin} (noted : tree.Noted slot kin event)
    (used : kin.phase ≠ .free -> (tree.kin slot).phase ≠ .free ∧ kin.pid = (tree.kin slot).pid)
    (exiting : kin.phase ≠ .free -> (tree.kin slot).exiting = true -> kin.exiting = true)
    (lives : (tree.kin slot).phase = .alive -> kin.phase = .alive ∨
      slot ≠ initproc ∧ ∀ child, (tree.kin child).parent ≠ some slot)
    (orphan : kin.phase = .free -> kin.parent = none)
    (linked : kin.phase ≠ .free -> kin.parent = none -> (tree.kin slot).parent = none ∧
      (kin.phase = .building ∨ kin.phase = (tree.kin slot).phase))
    (father : ∀ any, kin.parent = some any -> (tree.kin any).phase = .alive ∧
      Fathered (event.toList ++ tree.log) (tree.kin any).pid kin.pid)
    (stays : kin.parent = some slot -> kin.phase = .alive)
    (dead : ∀ status, kin.phase = .dead status -> .exit kin.pid status ∈ tree.log) :
    Ok { tree.setKin slot kin with log := event.toList ++ tree.log } := by
  have keys : Tree.keys { tree.setKin slot kin with log := event.toList ++ tree.log } =
      (event.bind Event.key).toList ++ tree.keys := by
    cases event with
    | none => rfl
    | some event => cases named : event.key <;> simp [Tree.keys, named]
  have key := noted.key
  refine { ok with
    named := fun any => ?_
    distinct := fun any other => ?_
    unnamed := fun any pid => ?_
    unknown := fun any pid => ?_
    known := fun kind pid => ?_
    first := ?_
    orphan := fun any => ?_
    parents := fun any other => ?_
    parented := fun any => ?_
    descends := fun any other => ?_
    unforked := fun any => ?_
    exited := fun any => ?_
    dead := fun any status => ?_
    reaped := fun any => ?_
    once := ?_
    delivered := fun newer older parent child status split => ?_ }
  any_goals simp only [↓keys, setKin, update_apply, mem_append, Option.mem_toList]
  · have known := ok.named any
    grind
  · grind [ok.distinct any other]
  · grind [ok.unnamed any pid]
  · have known := ok.unknown any pid
    have other := ok.unnamed any pid
    grind
  · have known := ok.known kind pid
    have bound := ok.named slot
    grind
  · grind [ok.first]
  · grind [ok.orphan any]
  · grind [ok.parents any other]
  · grind [ok.parented any]
  · have known := fun linked => (ok.descends any other linked).append event.toList
    have alive := ok.parents any other
    grind
  · have known := ok.unforked any
    have distinct := ok.distinct any slot
    grind
  · have known := ok.exited any
    have distinct := ok.distinct any slot
    grind
  · grind [ok.dead any status]
  · have known := ok.reaped any
    have distinct := ok.distinct any slot
    grind
  · cases named : event.bind Event.key with
    | none => exact ok.once
    | some entry => exact nodup_cons.mpr ⟨(key _ _ named).2.2.1, ok.once⟩
  · cases event with
    | none => exact ok.delivered newer older parent child status split
    | some event =>
      rcases cons_eq_append_iff.mp split with ⟨_, same⟩ | ⟨rest, _, past⟩
      · cases same
        exact noted.delivered parent child status rfl
      · exact ok.delivered rest older parent child status past

theorem Ok.link (building : (tree.kin child).phase = .building)
    (unlinked : (tree.kin child).parent = none) (alive : (tree.kin self).phase = .alive) :
    ((tree.setKin child { tree.kin child with parent := some self }).note
      (.fork (tree.kin self).pid (tree.kin child).pid)).Ok := by
  have used : (tree.kin child).phase ≠ .free := building.trans_ne Phase.noConfusion
  have gone : (tree.kin child).phase ≠ .alive := building.trans_ne Phase.noConfusion
  refine ok.change (some _) ⟨?_, ?_⟩ (fun _ => ⟨used, rfl⟩) (fun _ => id) Or.inl
    (fun free => (used free).elim) (fun _ => nofun) ?_ ?_ (ok.dead child)
  · rintro _ _ ⟨⟩
    exact ⟨used, rfl, ok.unforked child used unlinked, fun _ => ⟨nofun, nofun, nofun⟩⟩
  · exact fun _ _ _ => nofun
  · rintro any ⟨⟩
    exact ⟨alive, Or.inl mem_cons_self⟩
  · rintro ⟨⟩
    exact alive

/-- The process goes on with its system call. -/
theorem Ok.call (event : Option (Event H)) (slot : Slot) {exiting : Bool}
    (got : Option (Int × Int))
    (noted : tree.Noted slot { tree.kin slot with exiting := exiting, got := got } event)
    (exits : (tree.kin slot).exiting = true -> exiting = true) :
    Ok { tree.setKin slot { tree.kin slot with exiting := exiting, got := got } with
      log := event.toList ++ tree.log } :=
  ok.change event noted (fun used => ⟨used, rfl⟩) (fun _ => exits) Or.inl (ok.orphan slot)
    (fun _ orphan => ⟨orphan, Or.inr rfl⟩)
    (fun any linked => ⟨ok.parents slot any linked, (ok.descends slot any linked).append _⟩)
    (ok.parents slot slot) (ok.dead slot)

/-- `freeproc`, of a process that failed to start or that has exited. -/
theorem Ok.free (event : Option (Event H)) (gone : (tree.kin slot).phase ≠ .alive)
    (noted : tree.Noted slot (tree.kin slot).freed event) :
    Ok { tree.setKin slot (tree.kin slot).freed with log := event.toList ++ tree.log } :=
  ok.change event noted (fun used => (used rfl).elim) (fun used => (used rfl).elim)
    (fun alive => (gone alive).elim) (fun _ => rfl) (fun used => (used rfl).elim) (fun _ => nofun)
    nofun (fun _ => nofun)

theorem Ok.publish (building : (tree.kin child).phase = .building)
    (linked : (tree.kin child).parent = some self) :
    (tree.setKin child { tree.kin child with phase := .alive }).Ok := by
  have father := fun any linked => And.intro (ok.parents child any linked)
    (ok.descends child any linked)
  refine ok.change none (.silent rfl) (fun _ => ⟨?_, rfl⟩) (fun _ => id) (fun _ => Or.inl rfl)
    Phase.noConfusion ?_ father (fun _ => rfl) ?_
  · exact building.trans_ne Phase.noConfusion
  · intro _ orphan
    cases linked.symm.trans orphan
  · exact fun _ => Phase.noConfusion

/-- A child that is handed over descends from its creator, which exits. -/
theorem Ok.adopt (parent : (tree.kin child).parent = some slot) (mortal : slot ≠ initproc)
    (called : .exit (tree.kin slot).pid status ∈ tree.log) :
    (tree.setKin child { tree.kin child with parent := some initproc }).Ok := by
  have alive := ok.parents child slot parent
  have used : (tree.kin child).phase ≠ .free := by
    intro free
    cases parent.symm.trans (ok.orphan child free)
  have fathered : Fathered tree.log 1 (tree.kin child).pid := by
    rcases ok.descends child slot parent with forked | ⟨first, _⟩
    · exact Or.inr ⟨rfl, _, status, forked, called⟩
    · refine (mortal (ok.distinct slot initproc ?_ ?_ ?_)).elim
      · exact alive.trans_ne Phase.noConfusion
      · exact ok.first.2.trans_ne Phase.noConfusion
      · rw [first, ok.first.1]
  refine ok.change none (.silent rfl) (fun _ => ⟨used, rfl⟩) (fun _ => id) Or.inl
    (fun free => (used free).elim) (fun _ => nofun) ?_ ?_ (ok.dead child)
  · rintro any ⟨⟩
    exact ⟨ok.first.2, ok.first.1 ▸ fathered⟩
  · rintro ⟨⟩
    exact ok.first.2

theorem Ok.die (alive : (tree.kin slot).phase = .alive) (mortal : slot ≠ initproc)
    (childless : ∀ child, (tree.kin child).parent ≠ some slot)
    (called : .exit (tree.kin slot).pid status ∈ tree.log) :
    (tree.setKin slot { tree.kin slot with phase := .dead status }).Ok := by
  have used : (tree.kin slot).phase ≠ .free := alive.trans_ne Phase.noConfusion
  have building : (tree.kin slot).phase ≠ .building := alive.trans_ne Phase.noConfusion
  have father := fun any linked => And.intro (ok.parents slot any linked)
    (ok.descends slot any linked)
  refine ok.change none (.silent rfl) (fun _ => ⟨used, rfl⟩) (fun _ => id)
    (fun _ => Or.inr ⟨mortal, childless⟩) Phase.noConfusion
    (fun _ orphan => (ok.parented slot mortal used building orphan).elim) father
    (fun linked => (childless slot linked).elim) ?_
  rintro status ⟨⟩
  exact called

theorem Ok.exit (alive : (tree.kin slot).phase = .alive) (first : (tree.kin slot).exiting = false)
    (status : Int) :
    ((tree.setKin slot { tree.kin slot with exiting := true }).note
      (.exit (tree.kin slot).pid status)).Ok := by
  have used : (tree.kin slot).phase ≠ .free := alive.trans_ne Phase.noConfusion
  have new : (.exit, (tree.kin slot).pid) ∉ tree.keys := by
    intro member
    cases first.symm.trans (ok.exited slot used member)
  refine ok.call (some _) slot _ ⟨?_, fun _ _ _ => nofun⟩ (fun _ => rfl)
  rintro _ _ ⟨⟩
  exact ⟨used, rfl, new, fun _ => ⟨nofun, fun _ => rfl, nofun⟩⟩

theorem Ok.reap (different : slot ≠ self) (dead : (tree.kin slot).phase = .dead status)
    (parent : (tree.kin slot).parent = some self) (got : Option (Int × Int)) :
    (((tree.setKin slot (tree.kin slot).freed).setKin self { tree.kin self with got := got }).note
      (.reap (tree.kin self).pid (tree.kin slot).pid status)).Ok := by
  have used : (tree.kin slot).phase ≠ .free := dead.trans_ne Phase.noConfusion
  have gone : (tree.kin slot).phase ≠ .alive := dead.trans_ne Phase.noConfusion
  have noted : tree.Noted slot (tree.kin slot).freed
      (some (.reap (tree.kin self).pid (tree.kin slot).pid status)) := by
    refine ⟨?_, ?_⟩
    · rintro _ _ ⟨⟩
      exact ⟨used, rfl, ok.reaped slot used, fun still => (still rfl).elim⟩
    · rintro _ _ _ ⟨⟩
      exact ⟨ok.dead slot status dead, ok.descends slot self parent⟩
  have kept := (ok.free _ gone noted).call none self got (.silent rfl) id
  simp only [setKin, update_of_ne different.symm] at kept
  exact kept

/-! ## What the invariant says about the log -/

theorem Ok.dead_parent (dead : (tree.kin slot).phase = .dead status) :
    ∃ parent, (tree.kin slot).parent = some parent ∧ (tree.kin parent).phase = .alive := by
  cases linked : (tree.kin slot).parent with
  | some parent => exact ⟨parent, rfl, ok.parents slot parent linked⟩
  | none =>
    refine (ok.parented slot ?_ ?_ ?_ linked).elim
    · rintro rfl
      cases dead.symm.trans ok.first.2
    · exact dead.trans_ne Phase.noConfusion
    · exact dead.trans_ne Phase.noConfusion

/-- A process is collected at most once. -/
theorem Ok.reap_unique {newer older : List (Event H)} {parent child : Int}
    (split : tree.log = newer ++ .reap parent child status :: older) (other left : Int) :
    .reap other child left ∉ newer ++ older := by
  intro member
  have keys : tree.keys =
      newer.filterMap Event.key ++ (.reap, child) :: older.filterMap Event.key := by
    unfold keys
    rw [split, filterMap_append]
    rfl
  have once := ok.once
  rw [keys, nodup_middle, nodup_cons, ← filterMap_append] at once
  exact once.1 (mem_filterMap.mpr ⟨_, member, rfl⟩)

end

end Tree

omit [DecidableEq H] in
/-- In a log without repetitions an event is known by its key. -/
theorem eq_of_key {log : List (Event H)} (once : (log.filterMap Event.key).Nodup)
    {first second : Event H} (member1 : first ∈ log) (member2 : second ∈ log)
    {key : Kind × Int} (key1 : first.key = some key) (key2 : second.key = some key) :
    first = second := by
  induction log with
  | nil => cases member1
  | cons head tail ih =>
    have tails : (tail.filterMap Event.key).Nodup :=
      once.sublist ((sublist_cons_self head tail).filterMap _)
    have apart : head.key = some key -> ∀ event, event ∈ tail -> event.key ≠ some key := by
      intro named event member same
      rw [filterMap_cons_some named, nodup_cons] at once
      exact once.1 (mem_filterMap.mpr ⟨event, member, same⟩)
    rcases mem_cons.mp member1 with rfl | older1
    · rcases mem_cons.mp member2 with rfl | older2
      · rfl
      · exact (apart key1 second older2 key2).elim
    · rcases mem_cons.mp member2 with rfl | older2
      · exact (apart key2 first older1 key1).elim
      · exact ih tails older1 older2

/-- The steps keep the invariant as long as identifiers do not wrap around. -/
theorem TreeStep.ok {tree after : Tree H} (step : TreeStep tree after) (ok : tree.Ok)
    (few : after.issued < 2 ^ 31) : after.Ok := by
  cases step with
  | takePid hart => exact ok.takePid few
  | alloc hart slot pid free reserved => exact ok.alloc free reserved
  | discard slot building =>
    exact ok.free none (building.trans_ne Phase.noConfusion) (.silent rfl)
  | link child self building unlinked alive => exact ok.link building unlinked alive
  | publish child self building linked => exact ok.publish building linked
  | adopt child slot parent mortal status called => exact ok.adopt parent mortal called
  | exit slot status alive first => exact ok.exit alive first status
  | die slot status alive mortal _ childless called =>
    exact ok.die alive mortal childless called
  | reap slot self status different dead parent => exact ok.reap different dead parent _
  | waited self => exact ok.call (some _) self none (.silent rfl) id
  | timer hart yielded =>
    have kept := ok.call (some (.timer hart yielded)) initproc (tree.kin initproc).got
      (.silent rfl) id
    simp only [Tree.setKin, update_eq_self] at kept
    exact kept

theorem TreeStep.issued_le {tree after : Tree H} (step : TreeStep tree after) :
    tree.issued ≤ after.issued := by
  cases step with
  | takePid hart => exact Nat.le_succ _
  | _ => exact Nat.le_refl _

/-! ## What `wait` returns -/

omit [DecidableEq H] in
/-- The child that a process has collected and `wait` has not returned. -/
def owes : List (Event H) -> Int -> Option (Int × Int)
  | [], _ => none
  | .reap parent child status :: older, pid =>
    if parent = pid then some (child, status) else owes older pid
  | .waited parent _ _ _ :: older, pid => if parent = pid then none else owes older pid
  | _ :: older, pid => owes older pid

omit [DecidableEq H] in
/-- A `wait` returns the child that its process has collected since the last one
returned, and a process leaves none behind. -/
def Served (older : List (Event H)) : Event H -> Prop
  | .waited pid addr value status => Delivered (owes older pid) status addr value
  | .reap parent _ _ => owes older parent = none
  | .exit pid _ => owes older pid = none
  | _ => True

namespace Tree

variable {tree after : Tree H} {slot : Slot}

omit [DecidableEq H] in
structure Paid (tree : Tree H) : Prop where
  got : forall slot, (tree.kin slot).phase ≠ .free ->
    owes tree.log (tree.kin slot).pid = (tree.kin slot).got
  owner : forall pid, owes tree.log pid ≠ none ->
    ∃ slot, (tree.kin slot).phase = .alive ∧ (tree.kin slot).pid = pid
  served : forall newer event older, tree.log = newer ++ event :: older -> Served older event

section

variable (paid : tree.Paid)

include paid

omit [DecidableEq H]

theorem Paid.served_cons {event : Event H} (last : Served tree.log event)
    (newer : List (Event H)) (other : Event H) (older : List (Event H))
    (split : event :: tree.log = newer ++ other :: older) : Served older other := by
  rcases cons_eq_append_iff.mp split with ⟨_, same⟩ | ⟨rest, _, past⟩
  · cases same
    exact last
  · exact paid.served rest other older past

/-- A change of one process that keeps what it has to return.  It is freed or
dies only with nothing. -/
theorem Paid.revise {kin : Kin} (got : kin.phase ≠ .free -> owes tree.log kin.pid = kin.got)
    (stays : (tree.kin slot).phase = .alive -> owes tree.log (tree.kin slot).pid ≠ none ->
      kin.phase = .alive ∧ kin.pid = (tree.kin slot).pid) : (tree.setKin slot kin).Paid := by
  refine ⟨fun any used => ?_, fun pid owed => ?_, paid.served⟩
  all_goals simp only [setKin] at *
  · by_cases own : any = slot
    · subst own
      rw [update_self] at used ⊢
      exact got used
    · rw [update_of_ne own] at used ⊢
      exact paid.got any used
  · rcases paid.owner pid owed with ⟨any, alive, rfl⟩
    refine ⟨any, ?_⟩
    by_cases own : any = slot
    · subst own
      rw [update_self]
      exact stays alive owed
    · rw [update_of_ne own]
      exact ⟨alive, rfl⟩

/-- An event that neither collects nor returns. -/
theorem Paid.noteOther {event : Event H} (same : owes (event :: tree.log) = owes tree.log)
    (last : Served tree.log event) : (tree.note event).Paid where
  got slot used := (congrFun same _).trans (paid.got slot used)
  owner pid owed := paid.owner pid (congrFun same pid ▸ owed)
  served := paid.served_cons last

/-- A process collects a child or returns it. -/
theorem Paid.turn (ok : tree.Ok) (alive : (tree.kin slot).phase = .alive)
    {got : Option (Int × Int)} {event : Event H} (last : Served tree.log event)
    (change : owes (event :: tree.log) = update (owes tree.log) (tree.kin slot).pid got) :
    ((tree.setKin slot { tree.kin slot with got := got }).note event).Paid where
  got any used := by
    simp only [note, setKin, change] at used ⊢
    by_cases own : any = slot
    · subst own
      simp only [update_self]
    · rw [update_of_ne own] at used ⊢
      rw [update_of_ne, paid.got any used]
      intro same
      exact own (ok.distinct any slot used (alive.trans_ne Phase.noConfusion) same)
  owner pid owed := by
    simp only [note, setKin, change] at owed ⊢
    by_cases mine : pid = (tree.kin slot).pid
    · refine ⟨slot, ?_⟩
      rw [update_self]
      exact ⟨alive, mine.symm⟩
    · rw [update_of_ne mine] at owed
      rcases paid.owner pid owed with ⟨any, lives, rfl⟩
      have other : any ≠ slot := fun same => mine (same ▸ rfl)
      exact ⟨any, by rw [update_of_ne other]; exact ⟨lives, rfl⟩⟩
  served := paid.served_cons last

end

/-- Every step serves the callers of `wait`. -/
theorem Paid.step (paid : tree.Paid) (ok : tree.Ok) (step : TreeStep tree after) :
    after.Paid := by
  have still : ∀ {slot : Slot} {kin : Kin}, (tree.kin slot).phase ≠ .free ->
      kin.pid = (tree.kin slot).pid -> kin.got = (tree.kin slot).got ->
      ((tree.kin slot).phase = .alive -> kin.phase = .alive) -> (tree.setKin slot kin).Paid := by
    intro slot kin used pid got lives
    refine paid.revise (fun _ => ?_) (fun alive _ => ⟨lives alive, pid⟩)
    rw [pid, got]
    exact paid.got slot used
  have freed : ∀ {slot : Slot}, (tree.kin slot).phase ≠ .alive ->
      (tree.setKin slot (tree.kin slot).freed).Paid :=
    fun gone => paid.revise (fun used => (used rfl).elim) (fun alive => (gone alive).elim)
  have lives : ∀ {slot : Slot}, (tree.kin slot).phase = .alive ->
      (tree.kin slot).phase ≠ .free := by
    intro slot alive
    rw [alive]
    exact Phase.noConfusion
  cases step with
  | takePid => exact ⟨paid.got, paid.owner, paid.served⟩
  | timer => exact paid.noteOther rfl trivial
  | alloc hart slot pid free reserved =>
    have fresh : (tree.setResv hart none).Paid := ⟨paid.got, paid.owner, paid.served⟩
    refine fresh.revise (fun _ => ?_) (fun alive => by cases free.symm.trans alive)
    by_contra owed
    rcases paid.owner pid owed with ⟨other, alive, same⟩
    exact ok.unnamed hart pid reserved other (lives alive) same
  | discard slot building => exact freed (building.trans_ne Phase.noConfusion)
  | link child self building =>
    have used : (tree.kin child).phase ≠ .free := building.trans_ne Phase.noConfusion
    have linked : (tree.setKin child { tree.kin child with parent := some self }).Paid :=
      still used rfl rfl id
    exact linked.noteOther rfl trivial
  | publish child self building =>
    refine still ?_ rfl rfl (fun _ => rfl)
    rw [building]
    exact Phase.noConfusion
  | adopt child slot parent =>
    refine still (fun free => ?_) rfl rfl id
    cases parent.symm.trans (ok.orphan child free)
  | exit slot status alive _ empty =>
    have marked : (tree.setKin slot { tree.kin slot with exiting := true }).Paid :=
      still (lives alive) rfl rfl id
    exact marked.noteOther rfl ((paid.got slot (lives alive)).trans empty)
  | die slot status alive _ empty =>
    have none := (paid.got slot (lives alive)).trans empty
    exact paid.revise (fun _ => none.trans empty.symm) (fun _ owed => (owed none).elim)
  | reap slot self status different dead child empty =>
    have alive := ok.parents slot self child
    have gone : (tree.kin slot).phase ≠ .alive := dead.trans_ne Phase.noConfusion
    have same : (tree.setKin slot (tree.kin slot).freed).kin self = tree.kin self :=
      update_of_ne different.symm _ _
    have nothing := (paid.got self (lives alive)).trans empty
    rw [← same] at alive nothing ⊢
    refine (freed gone).turn (ok.free none gone (.silent rfl)) alive nothing (funext fun pid => ?_)
    simp only [owes, update_apply, eq_comm]
  | waited self addr value out alive delivers =>
    refine paid.turn ok alive ?_ (funext fun pid => ?_)
    · change Delivered (owes tree.log _) out addr value
      rw [paid.got self (lives alive)]
      exact delivers
    · simp only [owes, update_apply, eq_comm]

end Tree

end Kernel
end Xv6
