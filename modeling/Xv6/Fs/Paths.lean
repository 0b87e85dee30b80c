import Xv6.Fs.Directories

namespace Xv6
namespace Fs

open Conc List

/-!
# Path lookups

`namex` holds one reference at a time while it goes down a path.  An inode that
it passes is not freed when it has a link, or when someone else refers to it as
well.  If this is so for every inode that a directory names, then a lookup
changes nothing but the table.
-/

/-! ## References -/

/-- The table has the given references in addition to those that it had. -/
structure Table (extra : List Entry) (old new : State) : Prop where
  ref : forall jp, (new.entry jp).ref = (old.entry jp).ref + extra.count jp
  inum : forall jp, 0 < (old.entry jp).ref -> (new.entry jp).inum = (old.entry jp).inum

section Table

variable {extra : List Entry} {old middle new : State} {ip : Entry} {inum : Nat} {jp : Entry}

theorem Table.refl (state : State) : Table [] state state :=
  ⟨fun _ => by rw [count_nil, Nat.add_zero], fun _ _ => rfl⟩

theorem Table.referenced (table : Table extra old new) (referenced : 0 < (old.entry jp).ref) :
    0 < (new.entry jp).ref := by
  rw [table.ref]
  omega

theorem Table.mem_referenced (table : Table extra old new) (member : ip ∈ extra) :
    0 < (new.entry ip).ref := by
  have positive := count_pos_iff.mpr member
  rw [table.ref]
  omega

/-- What neither takes nor drops a reference does not matter. -/
theorem Table.same (table : Table extra old middle)
    (ref : ∀ jp, (new.entry jp).ref = (middle.entry jp).ref)
    (inum : ∀ jp, (new.entry jp).inum = (middle.entry jp).inum) : Table extra old new :=
  ⟨fun jp => (ref jp).trans (table.ref jp), fun jp positive =>
    (inum jp).trans (table.inum jp positive)⟩

theorem Table.perm {extra' : List Entry} (table : Table extra old new)
    (same : extra.Perm extra') : Table extra' old new :=
  ⟨fun jp => (table.ref jp).trans (by rw [same.count_eq]), table.inum⟩

theorem hold_ref (state : State) (ip jp : Entry) :
    ((state.hold ip).entry jp).ref = (state.entry jp).ref + if ip = jp then 1 else 0 := by
  unfold State.hold
  by_cases here : jp = ip
  · rw [here, if_pos rfl, setInode_entry_self]
  · rw [if_neg fun same => here same.symm, setInode_entry_other here, Nat.add_zero]

theorem hold_inum (state : State) (ip jp : Entry) :
    ((state.hold ip).entry jp).inum = (state.entry jp).inum :=
  setInode_field Inode.inum (by rfl) jp

section

variable (got : Got inum old ip new)

include got

theorem Got.inum_self : (new.entry ip).inum = inum := by
  cases got with
  | found _ same =>
    rw [hold_inum]
    exact same
  | fresh => rw [State.recycle, setInode_entry_self]

/-- `iget` keeps what is referenced already. -/
theorem Got.kept (referenced : 0 < (old.entry jp).ref) :
    (new.entry jp).inum = (old.entry jp).inum ∧ (new.entry jp).node = (old.entry jp).node ∧
      (new.entry jp).valid = (old.entry jp).valid ∧ (new.entry jp).lock = (old.entry jp).lock ∧
      0 < (new.entry jp).ref := by
  cases got with
  | found =>
    unfold State.hold
    by_cases here : jp = ip
    · subst here
      simp only [setInode_entry_self, true_and]
      omega
    · simp only [setInode_entry_other here, true_and]
      exact referenced
  | fresh unused =>
    have here : jp ≠ ip := by
      rintro rfl
      omega
    unfold State.recycle
    simp only [setInode_entry_other here, true_and]
    exact referenced

theorem Got.held {p : Pid} (held : Held p jp old) : Held p jp new := by
  obtain ⟨_, _, valid, lock, positive⟩ := got.kept held.referenced
  exact ⟨positive, valid.trans held.valid, lock.trans held.locked⟩

theorem Got.steady : Steady old new := by
  cases got <;> exact ⟨rfl, rfl, rfl, rfl, rfl, rfl⟩

theorem Got.disk : new.disk = old.disk := by
  cases got <;> rfl

theorem Got.ref (jp : Entry) :
    (new.entry jp).ref = (old.entry jp).ref + if ip = jp then 1 else 0 := by
  cases got with
  | found => exact hold_ref old ip jp
  | fresh unused =>
    unfold State.recycle
    by_cases here : jp = ip
    · rw [here, if_pos rfl, unused, setInode_entry_self]
    · rw [if_neg fun same => here same.symm, setInode_entry_other here, Nat.add_zero]

end

theorem Table.got (table : Table extra old middle) (got : Got inum middle ip new) :
    Table (ip :: extra) old new where
  ref := by
    intro jp
    rw [got.ref, table.ref, count_cons, Nat.add_assoc]
    simp only [beq_iff_eq]
  inum := by
    intro jp positive
    rw [(got.kept (table.referenced positive)).1, table.inum jp positive]

theorem Table.put (table : Table (ip :: extra) old middle) (put : Put ip middle new) :
    Table extra old new where
  ref := by
    intro jp
    by_cases here : jp = ip
    · subst here
      rw [put.ref, table.ref, count_cons_self]
      omega
    · rw [put.other jp here, table.ref, count_cons_of_ne fun same => here same.symm]
  inum := fun jp positive => (put.inum jp).trans (table.inum jp positive)

end Table

/-! ## Inodes that a lookup does not free -/

/-- An inode that is free already, has a link, or is referred to. -/
def Kept (state : State) (inum : Nat) : Prop :=
  (state.disk.node inum).type = 0 ∨ (state.disk.node inum).nlink ≠ 0 ∨
    ∃ ip, 0 < (state.entry ip).ref ∧ (state.entry ip).inum = inum

/-- The inodes that a lookup can come to: the root, those that are referred to, and
what a directory among them names. -/
inductive Findable (state : State) : Nat -> Prop where
  | root : Findable state ROOTINO
  | used {ip : Entry} (referenced : 0 < (state.entry ip).ref) :
      Findable state (state.entry ip).inum
  | named {dir off : Nat} (found : Findable state dir)
      (directory : (state.disk.node dir).type = T_DIR) (names : state.disk.Names dir off) :
      Findable state (state.disk.dirent dir off).inum

def Named (state : State) : Prop := forall inum, Findable state inum -> Kept state inum

/-- The same entries name inodes that are still kept. -/
theorem Named.carry {old new : State} (named : Named old)
    (types : ∀ inum, (new.disk.node inum).type = (old.disk.node inum).type)
    (contents : ∀ inum, new.disk.contents inum = old.disk.contents inum)
    (used : ∀ ip, 0 < (new.entry ip).ref -> Findable old (new.entry ip).inum)
    (kept : ∀ inum, Kept old inum -> Kept new inum) : Named new := by
  have before : ∀ inum, Findable new inum -> Findable old inum := by
    intro inum found
    induction found with
    | root => exact .root
    | used referenced => exact used _ referenced
    | @named dir off _ directory names ih =>
      have size : (new.disk.node dir).size = (old.disk.node dir).size := by
        rw [← Volume.length_contents, ← Volume.length_contents, contents]
      have entry : new.disk.dirent dir off = old.disk.dirent dir off := by
        rw [Volume.dirent, Volume.dirent, contents]
      obtain ⟨member, inside, present⟩ := names
      rw [types] at directory
      rw [size] at member inside
      rw [entry] at present ⊢
      exact ih.named directory ⟨member, inside, present⟩
  exact fun inum found => kept inum (named inum (before inum found))

/-- Every inode block can be listed. -/
def Everywhere (sb : Superblock) (blocks : Finset Nat) : Prop :=
  forall inum, inum < sb.ninodes -> sb.IBLOCK inum ∈ blocks

/-- A lookup that holds the given references: it has not freed an inode and will
not free those that it has found, or it may list every inode block. -/
structure Walk (sb : Superblock) (blocks : Finset Nat) (held : List Entry)
    (old new : State) : Prop where
  table : Table held old new
  steady : Steady old new
  safe : (new.disk = old.disk ∧ Named old ∧ forall ip, ip ∈ held ->
    Findable old (new.entry ip).inum) ∨ Everywhere sb blocks

section Walk

variable {sb : Superblock} {stop : State -> Prop} {past : List (List Nat)}
  {blocks : Finset Nat} {count : Nat} {p : Pid} {ip : Entry} {held : List Entry}
  {old middle new : State}

theorem Walk.start (safe : Named old ∨ Everywhere sb blocks) : Walk sb blocks [] old old where
  table := Table.refl old
  steady := Steady.refl old
  safe := safe.imp_left fun named => ⟨rfl, named, fun _ impossible => by cases impossible⟩

section

variable (walk : Walk sb blocks held old middle)

include walk

theorem Walk.same (steady : Steady middle new) (disk : new.disk = middle.disk)
    (ref : ∀ jp, (new.entry jp).ref = (middle.entry jp).ref)
    (inum : ∀ jp, (new.entry jp).inum = (middle.entry jp).inum) :
    Walk sb blocks held old new where
  table := walk.table.same ref inum
  steady := walk.steady.trans steady
  safe := by
    refine walk.safe.imp_left ?_
    rintro ⟨same, named, found⟩
    refine ⟨disk.trans same, named, fun ip member => ?_⟩
    rw [inum]
    exact found ip member

theorem Walk.got (got : Got inum middle ip new)
    (spared : middle.disk = old.disk ->
      (∀ jp, jp ∈ held -> Findable old (middle.entry jp).inum) -> Findable old inum) :
    Walk sb blocks (ip :: held) old new where
  table := walk.table.got got
  steady := walk.steady.trans got.steady
  safe := by
    refine walk.safe.imp_left ?_
    rintro ⟨same, named, found⟩
    refine ⟨got.disk.trans same, named, fun jp member => ?_⟩
    rcases mem_cons.mp member with rfl | earlier
    · rw [got.inum_self]
      exact spared same found
    · rw [(got.kept (walk.table.mem_referenced earlier)).1]
      exact found jp earlier

/-- The inode is not freed, or its block can be listed. -/
theorem Walk.allowed (op : Op sb past blocks middle) (member : ip ∈ held) (last : Last ip middle) :
    sb.IBLOCK (middle.entry ip).inum ∈ blocks ∧ Everywhere sb blocks := by
  obtain ⟨one, valid, unlinked⟩ := last
  have referenced : 0 < (middle.entry ip).ref := by omega
  have clean := op.settled.clean ip referenced valid
  have typed := op.settled.typed ip referenced valid
  rw [clean] at typed unlinked
  rcases walk.safe with ⟨same, named, found⟩ | everywhere
  · exfalso
    rw [same] at typed unlinked
    rcases named _ (found ip member) with free | linked | ⟨jp, other, shared⟩
    · exact typed free
    · exact linked unlinked
    · have inum := walk.table.inum jp other
      have here : jp = ip := op.settled.unique jp ip (walk.table.referenced other) referenced
        (inum.trans shared)
      subst here
      have sum := walk.table.ref jp
      have extra := count_pos_iff.mpr member
      omega
  · exact ⟨everywhere _ (op.consistent.number _ typed), everywhere⟩

end

theorem Walk.put (walk : Walk sb blocks (ip :: held) old middle) (op : Op sb past blocks middle)
    (put : Put ip middle new) : Walk sb blocks held old new where
  table := walk.table.put put
  steady := walk.steady.trans put.steady
  safe := by
    by_cases last : Last ip middle
    · exact Or.inr (walk.allowed op mem_cons_self last).2
    · refine walk.safe.imp_left ?_
      rintro ⟨same, named, found⟩
      refine ⟨(put.disk last).trans same, named, fun jp member => ?_⟩
      rw [put.inum]
      exact found jp (mem_cons_of_mem _ member)

theorem Walk.locked (walk : Walk sb blocks held old middle) :
    Walk sb blocks held old (middle.locked p ip) :=
  walk.same locked_steady rfl (setInode_field Inode.ref (by rfl))
    (setInode_field Inode.inum (by rfl))

theorem Walk.released (walk : Walk sb blocks held old middle) :
    Walk sb blocks held old (middle.releasesleep ip) :=
  walk.same releasesleep_steady rfl (setInode_field Inode.ref (by rfl))
    (setInode_field Inode.inum (by rfl))

theorem Walk.iput (walk : Walk sb blocks (ip :: held) old middle) (op : Op sb past blocks middle)
    (fits : Fits stop sb past count) (within : blocks.card ≤ count)
    {goal : Unit -> State -> Prop}
    (next : ∀ after, Op sb past blocks after -> Walk sb blocks held old after ->
      goal () after) : Meets () stop (iput sb p ip) goal middle := by
  refine op.iput fits within (fun last => (walk.allowed op mem_cons_self last).1) ?_
  exact fun after op' put => next after op' (walk.put op put)

theorem Walk.iunlockput (walk : Walk sb blocks (ip :: held) old middle)
    (op : Op sb past blocks middle) (fits : Fits stop sb past count)
    (within : blocks.card ≤ count) {goal : Unit -> State -> Prop}
    (next : ∀ after, Op sb past blocks after -> Walk sb blocks held old after ->
      goal () after) : Meets () stop (iunlockput sb p ip) goal middle := by
  simp only [Fs.iunlockput, meets_do]
  exact op.iunlock fits within fun op' => walk.released.iput op' fits within next

/-! ## `namex` -/

/-- The loop of `namex` ends with one reference, or with none if the path has no
inode. -/
theorem Walk.namexLoop (fits : Fits stop sb past count) (within : blocks.card ≤ count)
    (parent : Bool) {goal : Option (Entry × List UInt8) -> State -> Prop}
    (missing : ∀ after, Op sb past blocks after -> Walk sb blocks [] old after -> goal none after)
    (found : ∀ ip name after, Op sb past blocks after -> Walk sb blocks [ip] old after ->
      goal (some (ip, name)) after) (turns : Nat) (path : List UInt8)
    (walk : Walk sb blocks [ip] old middle) (op : Op sb past blocks middle) :
    Meets () stop (namexLoop sb p parent turns path ip) goal middle := by
  -- At the end of the path.
  have finish : ∀ {ip : Entry} {middle : State}, Walk sb blocks [ip] old middle ->
      Op sb past blocks middle -> Meets () stop (if parent then do
        Fs.iput sb p ip
        pure none
      else pure (some (ip, []))) goal middle := by
    intro ip middle walk op
    split
    · simp only [meets_do]
      exact walk.iput op fits within fun after op' walk' => (meets_pure _).mpr
        (missing after op' walk')
    · exact (meets_pure _).mpr (found ip [] middle op walk)
  have stuck : ∀ {ip : Entry} {middle : State}, Walk sb blocks [ip] old middle ->
      Op sb past blocks middle -> Meets () stop (do
        Fs.iunlockput sb p ip
        pure none) goal middle := by
    intro ip middle walk op
    simp only [meets_do]
    exact walk.iunlockput op fits within fun after op' walk' => (meets_pure _).mpr
      (missing after op' walk')
  induction turns generalizing path ip middle with
  | zero => exact finish walk op
  | succ turns ih =>
    unfold namexLoop
    cases skipelem path with
    | none => exact finish walk op
    | some element =>
      obtain ⟨name, rest⟩ := element
      simp only [meets_do]
      refine op.ilock fits within fun op' _ held' => ?_
      have walk' : Walk sb blocks [ip] old (middle.locked p ip) := walk.locked
      simp only [meets_look]
      split
      · exact stuck walk' op'
      · next directory =>
          split
          · simp only [meets_do]
            refine op'.iunlock fits within fun op'' => (meets_pure _).mpr ?_
            exact found ip name _ op'' walk'.released
          · simp only [meets_do]
            refine op'.dirlookup fits within held' ?_ ?_
            · exact stuck walk' op'
            · intro off next after type names op'' got
              simp only [meets_do]
              have both : Walk sb blocks [next, ip] old after := by
                refine walk'.got got fun same found => ?_
                have dir := (op'.settled.clean ip held'.referenced held'.valid) ▸ type
                rw [same] at dir names ⊢
                exact (found ip mem_cons_self).named dir names
              have swapped : Walk sb blocks [ip, next] old after :=
                ⟨both.table.perm (List.Perm.swap _ _ _), both.steady,
                  both.safe.imp_left fun h => ⟨h.1, h.2.1, fun jp member =>
                    h.2.2 jp ((List.Perm.swap _ _ _).mem_iff.mp member)⟩⟩
              exact swapped.iunlockput op'' fits within fun final op3 walk3 =>
                ih rest walk3 op3

/-- `namex` from a state in which the current directory is in the table. -/
theorem Op.namex (op : Op sb past blocks old) (fits : Fits stop sb past count)
    (within : blocks.card ≤ count) (safe : Named old ∨ Everywhere sb blocks)
    (cwd : ∀ ip, (old.proc p).cwd = some ip -> 0 < (old.entry ip).ref)
    (parent : Bool) {path : Path} {goal : Option (Entry × List UInt8) -> State -> Prop}
    (missing : ∀ after, Op sb past blocks after -> Walk sb blocks [] old after -> goal none after)
    (found : ∀ ip name after, Op sb past blocks after -> Walk sb blocks [ip] old after ->
      goal (some (ip, name)) after) :
    Meets () stop (namex sb p path parent) goal old := by
  have start : Walk sb blocks [] old old := Walk.start safe
  simp only [Fs.namex]
  split
  · simp only [meets_do]
    refine op.iget fits within fun ip after op' got => ?_
    refine Walk.namexLoop fits within parent missing found _ _ (start.got got ?_) op'
    exact fun _ _ => .root
  · simp only [meets_do, meets_look]
    cases here : (old.proc p).cwd with
    | none => exact op.blocked fits within
    | some ip =>
      have referenced := cwd ip here
      simp only [idup, meets_do, meets_change, meets_pure]
      refine Walk.namexLoop fits within parent missing found _ _ ?_ (op.hold referenced)
      exact start.got (.found ip referenced rfl) fun _ _ => .used referenced

end Walk

end Fs
end Xv6
