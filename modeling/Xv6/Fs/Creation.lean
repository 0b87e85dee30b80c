import Xv6.Fs.Brackets

namespace Xv6
namespace Fs

open Conc Finset

/-!
# Creating an inode

`create` is the longest operation.  A new directory lists its own inode block and
that of its parent, one block with the first entries, and the block of the parent
that gets the new entry, with the indirect block above it.
-/

section Create

variable {sb : Superblock} {stop : State -> Prop} {good : List (List Nat) -> Prop}
  {past : List (List Nat)} {blocks : Finset Nat} {state : State} {count : Nat} {p : Pid}
  {dp ip : Entry} {name : List UInt8} {jp : Entry}

/-- The blocks of an operation have grown by at most `more`. -/
structure Grew (blocks : Finset Nat) (more : Nat) (larger : Finset Nat) : Prop where
  subset : blocks ⊆ larger
  card : larger.card ≤ blocks.card + more

theorem Grew.refl (blocks : Finset Nat) : Grew blocks 0 blocks := ⟨Finset.Subset.refl _, le_refl _⟩

theorem Grew.insert (blocks : Finset Nat) (block : Nat) :
    Grew blocks 1 (Insert.insert block blocks) :=
  ⟨subset_insert _ _, card_insert_le _ _⟩

theorem Grew.union {data : Finset Nat} {more : Nat} (few : data.card ≤ more) :
    Grew blocks more (blocks ∪ data) :=
  ⟨subset_union_left, (card_union_le _ _).trans (by omega)⟩

theorem Grew.trans {middle larger : Finset Nat} {more again : Nat}
    (first : Grew blocks more middle) (second : Grew middle again larger) :
    Grew blocks (more + again) larger :=
  ⟨first.subset.trans second.subset, by have one := first.card; have two := second.card; omega⟩

theorem Grew.mono {larger : Finset Nat} {more most : Nat} (grew : Grew blocks more larger)
    (less : more ≤ most) : Grew blocks most larger :=
  ⟨grew.subset, by have card := grew.card; omega⟩

/-- The only operation that is running. -/
structure Alone (sb : Superblock) (good : List (List Nat) -> Prop) (past : List (List Nat))
    (blocks : Finset Nat) (now : State) : Prop extends Op sb past blocks now where
  before : good past
  one : now.outstanding = 1
  files : FilesOk now

/-- A locked inode whose block may be listed. -/
structure Has (sb : Superblock) (p : Pid) (blocks : Finset Nat) (ip : Entry) (state : State) :
    Prop extends Held p ip state where
  allowed : sb.IBLOCK (state.entry ip).inum ∈ blocks

section Has

variable {larger : Finset Nat} {after : State}

section

variable (has : Has sb p blocks ip state)

include has

theorem Has.refreshed (refreshed : Refreshed jp state after) (subset : blocks ⊆ larger) :
    Has sb p larger ip after where
  toHeld := refreshed.held has.toHeld
  allowed := by
    rw [refreshed.inum]
    exact subset has.allowed

theorem Has.got {inum : Nat} (got : Got inum state jp after) : Has sb p blocks ip after where
  toHeld := got.held has.toHeld
  allowed := by
    rw [(got.kept has.referenced).1]
    exact has.allowed

theorem Has.put (different : ip ≠ jp) (put : Put jp (state.releasesleep jp) after) :
    Has sb p blocks ip after where
  toHeld := put.held_released different has.toHeld
  allowed := by
    rw [put.inum_released]
    exact has.allowed

/-- A second inode is locked while the first one is. -/
theorem Has.beside (free : (state.entry jp).lock = none) (subset : blocks ⊆ larger) :
    ip ≠ jp ∧ Has sb p larger ip (state.locked p jp) := by
  have different : ip ≠ jp := by
    rintro rfl
    rw [has.locked] at free
    cases free
  refine ⟨different, has.of_entry (locked_entry_other different), ?_⟩
  rw [locked_entry_other different]
  exact subset has.allowed

end

end Has

namespace Alone

variable {after : State} {edit : Dinode -> Dinode}

theorem carry {larger : Finset Nat} (alone : Alone sb good past blocks state)
    (op : Op sb past larger after) (steady : Steady state after) :
    Alone sb good past larger after :=
  ⟨op, alone.before, steady.outstanding.trans alone.one, alone.files.same steady.file⟩

section Rules

variable (alone : Alone sb good past blocks state) (fits : Fits stop sb past count)
  (within : blocks.card ≤ count) {goal : Unit -> State -> Prop}

include alone fits

/-- An inode is locked, and its block may be listed from then on. -/
theorem ilock (room : blocks.card + 1 ≤ count) (next : ∀ larger, Grew blocks 1 larger ->
      Alone sb good past larger (state.locked p ip) -> (state.entry ip).lock = none ->
      Has sb p larger ip (state.locked p ip) -> goal () (state.locked p ip)) :
    Meets () stop (ilock p ip) goal state := by
  have grew := Grew.insert blocks (sb.IBLOCK (state.entry ip).inum)
  refine (alone.toOp.mono grew.subset).ilock fits (grew.card.trans room) fun op free held => ?_
  refine next _ grew (alone.carry op locked_steady) free ⟨held, ?_⟩
  rw [locked_entry_self]
  exact mem_insert_self _ _

include within

theorem iunlock (next : Alone sb good past blocks (state.releasesleep ip) ->
      goal () (state.releasesleep ip)) : Meets () stop (iunlock p ip) goal state :=
  alone.toOp.iunlock fits within fun op => next (alone.carry op releasesleep_steady)

theorem iupdate (has : Has sb p blocks ip state)
    (same : ∀ node, (edit node).type = node.type ∧ (edit node).addrs = node.addrs ∧
      (edit node).size = node.size)
    (next : Alone sb good past blocks (state.updated sb ip edit) ->
      goal () (state.updated sb ip edit)) :
    Meets () stop (iupdate sb ip) goal (state.edit ip edit) :=
  alone.toOp.iupdate fits within has.toHeld has.allowed same fun op =>
    next (alone.carry op updated_steady)

theorem iunlockput (has : Has sb p blocks ip state)
    (next : ∀ after, Alone sb good past blocks after ->
      Put ip (state.releasesleep ip) after -> goal () after) :
    Meets () stop (iunlockput sb p ip) goal state :=
  alone.toOp.iunlockput fits within has.allowed fun after op steady =>
    next after (alone.carry op steady)

end Rules

/-- `dirlink` where a name that exists already is a reason to panic. -/
theorem dirlinkNew (alone : Alone sb good past blocks state)
    (fits : Fits stop sb past count) (within : blocks.card + 2 ≤ count)
    (has : Has sb p blocks dp state) {inum : Nat} {why : Panic}
    (elsewhere : why ≠ .freeingFreeBlock) {α : Type} {rest : Routine α}
    {goal : α -> State -> Prop}
    (next : ∀ larger after, Grew blocks 2 larger -> Alone sb good past larger after ->
      Refreshed dp state after -> Meets () stop rest goal after) :
    Meets () stop (Fs.dirlink sb p dp name inum) (fun value after =>
      Meets () stop (if value < 0 then panic why else rest) goal after) state := by
  refine alone.dirlink fits within has.toHeld has.allowed ?_ ?_
  · intro number ip middle after _ _ op
    rw [if_pos (by decide)]
    exact op.panics fits ((Grew.insert blocks _).card.trans (by omega)) elsewhere
  · intro data after few op steady refreshed
    rw [if_neg (by decide)]
    exact next _ after (Grew.union few) (alone.carry op steady) refreshed

/-- The entries of a new directory. -/
theorem createDots (alone : Alone sb good past blocks state)
    (fits : Fits stop sb past count) (within : blocks.card + 4 ≤ count)
    (parent : Has sb p blocks dp state) (has : Has sb p blocks ip state)
    {goal : Unit -> State -> Prop}
    (next : ∀ larger after, Grew blocks 4 larger -> Alone sb good past larger after ->
      Has sb p larger dp after -> Has sb p larger ip after -> goal () after) :
    Meets () stop (createDots sb p dp ip) goal state := by
  simp only [Fs.createDots, meets_do, meets_change]
  refine alone.iupdate fits (by omega) parent (by exact fun _ => ⟨rfl, rfl, rfl⟩)
    fun alone' => ?_
  simp only [meets_look]
  generalize counted : state.updated sb dp _ = middle at alone' ⊢
  have refreshed : Refreshed dp state middle := counted ▸ updated_refreshed
  have parent' := parent.refreshed refreshed (Finset.Subset.refl _)
  have has' := has.refreshed refreshed (Finset.Subset.refl _)
  refine alone'.dirlinkNew fits (by omega) has' (by decide) ?_
  intro larger one grew alone1 linked
  simp only [meets_do]
  have bound := grew.card
  have has1 := has'.refreshed linked grew.subset
  refine alone1.dirlinkNew fits (by omega) has1 (by decide) ?_
  intro largest two grew' alone2 linked'
  refine (meets_pure _).mpr (next largest two (grew.trans grew') alone2 ?_ ?_)
  · exact (parent'.refreshed linked grew.subset).refreshed linked' grew'.subset
  · exact has1.refreshed linked' grew'.subset

end Alone

/-- The number of blocks that `create` lists besides the bitmap. -/
def createCost (type : Int) : Nat := if type = T_DIR then 7 else 3

theorem three_le_createCost (type : Int) : 3 ≤ createCost type := by
  unfold createCost
  split <;> decide

/-- `create` after the parent directory is locked and has no entry `name`. -/
theorem Alone.createIn (alone : Alone sb good past blocks state)
    (fits : Fits stop sb past count) {type major minor : Int}
    (within : blocks.card + createCost type ≤ count) (parent : Has sb p blocks dp state)
    {goal : Entry -> State -> Prop}
    (next : ∀ ip larger after, Grew blocks (createCost type) larger ->
      Alone sb good past larger after -> Has sb p larger ip after -> goal ip after) :
    Meets () stop (createIn sb p dp name type major minor) goal state := by
  have cost := three_le_createCost type
  simp only [Fs.createIn, meets_do]
  refine alone.ialloc fits (by omega) fun inum ip first op1 got => ?_
  have grew1 := Grew.insert blocks (sb.IBLOCK inum)
  have alone1 := alone.carry op1 (ialloced_steady.trans got.steady)
  have parent0 : Has sb p blocks dp (state.ialloced sb type inum) :=
    ⟨parent.of_entry rfl, parent.allowed⟩
  have card1 := grew1.card
  refine op1.ilock fits (by omega) fun op2 free held2 => ?_
  obtain ⟨different, parent2⟩ := (parent0.got got).beside free grew1.subset
  have has2 : Has sb p (Insert.insert (sb.IBLOCK inum) blocks) ip (first.locked p ip) := by
    refine ⟨held2, ?_⟩
    rw [locked_entry_self, show (first.entry ip).inum = inum from got.inum_self]
    exact mem_insert_self _ _
  simp only [meets_change]
  refine (alone1.carry op2 locked_steady).iupdate fits (by omega) has2
    (by exact fun _ => ⟨rfl, rfl, rfl⟩) fun alone3 => ?_
  generalize made : (first.locked p ip).updated sb ip _ = third at alone3 ⊢
  have refreshed : Refreshed ip (first.locked p ip) third := made ▸ updated_refreshed
  have parent3 := parent2.refreshed refreshed (Finset.Subset.refl _)
  have has3 := has2.refreshed refreshed (Finset.Subset.refl _)
  -- The entry in the parent directory is the same for all types.
  have finish : ∀ more larger fourth, more + 3 = createCost type ->
      Grew (Insert.insert (sb.IBLOCK inum) blocks) more larger ->
      Alone sb good past larger fourth -> Has sb p larger dp fourth ->
      Has sb p larger ip fourth ->
      Meets () stop (Fs.dirlink sb p dp name (fourth.entry ip).inum) (fun value after =>
        Meets () stop (if value < 0 then panic .createDirlink else do
          Fs.iunlockput sb p dp
          pure ip) goal after) fourth := by
    intro more larger fourth total grew alone4 parent4 has4
    have card4 := grew.card
    refine alone4.dirlinkNew fits (by omega) parent4 (by decide) ?_
    intro largest fifth grew' alone5 linked
    have card5 := grew'.card
    simp only [meets_do]
    refine alone5.iunlockput fits (by omega) (parent4.refreshed linked grew'.subset) ?_
    intro last alone6 put
    have all := grew1.trans (grew.trans grew')
    refine (meets_pure _).mpr (next ip largest last (all.mono (by omega)) alone6 ?_)
    exact (has4.refreshed linked grew'.subset).put different.symm put
  split
  · next directory =>
      have cost' : createCost type = 7 := if_pos directory
      simp only [meets_do]
      refine alone3.createDots fits (by omega) parent3 has3 ?_
      intro larger fourth grew alone4 parent4 has4
      simp only [meets_look]
      exact finish 4 larger fourth (by omega) grew alone4 parent4 has4
  · next other =>
      have cost' : createCost type = 3 := if_neg other
      simp only [meets_do, meets_look]
      exact finish 0 _ third (by omega) (Grew.refl _) alone3 parent3 has3

/-- `create` gives a locked inode, which is new or has been found, or nothing. -/
theorem Alone.create (alone : Alone sb good past blocks state) (fits : Fits stop sb past count)
    {type major minor : Int} (within : blocks.card + 1 + createCost type ≤ count)
    (safe : Named state ∨ Everywhere sb blocks)
    (cwd : ∀ ip, (state.proc p).cwd = some ip -> 0 < (state.entry ip).ref)
    {path : Path} {goal : Option Entry -> State -> Prop}
    (missing : ∀ larger after, Grew blocks (1 + createCost type) larger ->
      Alone sb good past larger after -> goal none after)
    (made : ∀ ip larger after, Grew blocks (1 + createCost type) larger ->
      Alone sb good past larger after -> Has sb p larger ip after -> goal (some ip) after) :
    Meets () stop (create sb p path type major minor) goal state := by
  have cost := three_le_createCost type
  simp only [Fs.create, nameiparent, meets_do]
  refine alone.namex fits (by omega) safe cwd true ?_ ?_
  · intro after op' walk
    exact missing blocks after ((Grew.refl blocks).mono (by omega))
      (alone.carry op' walk.steady)
  · intro dp name first op1 walk
    simp only [meets_do]
    refine (alone.carry op1 walk.steady).ilock fits (by omega)
      fun larger1 grew1 alone2 _ parent2 => ?_
    have card1 := grew1.card
    refine alone2.dirlookup fits (by omega) parent2.toHeld ?_ ?_
    · simp only [meets_do]
      refine alone2.createIn fits (by omega) parent2 ?_
      intro ip larger after grew alone3 has3
      exact (meets_pure _).mpr (made ip larger after (grew1.trans grew) alone3 has3)
    · intro off ip second _ _ op3 got
      simp only [meets_do]
      refine (alone2.carry op3 got.steady).iunlockput fits (by omega) (parent2.got got) ?_
      intro third alone4 _
      refine alone4.ilock fits (by omega) fun larger2 grew2 alone5 _ has5 => ?_
      have card2 := grew2.card
      have grown : Grew blocks (1 + createCost type) larger2 :=
        (grew1.trans grew2).mono (by omega)
      simp only [meets_look]
      split
      · exact (meets_pure _).mpr (made ip _ _ grown alone5 has5)
      · simp only [meets_do]
        refine alone5.iunlockput fits (by omega) has5 fun last alone6 _ => ?_
        exact (meets_pure _).mpr (missing _ last grown alone6)

end Create

end Fs
end Xv6
