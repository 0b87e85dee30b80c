import Xv6.Fs.Creation

namespace Xv6
namespace Fs

open Conc Nat Option

/-!
# System calls as operations

One rule for each system call: when it returns, no operation is running and the
transactions that it has committed are good.
-/

section Calls

variable {sb : Superblock} {stop : State -> Prop} {good : List (List Nat) -> Prop}
  {past : List (List Nat)} {base blocks : Finset Nat} {count : Nat} {p : Pid} {state after : State}
  {path : Option Path}

theorem createCost_le (type : Int) : 1 + createCost type ≤ 8 := by
  unfold createCost
  split <;> decide

/-! ## Links that are counted -/

/-- A link count changes, and the inode is in the table. -/
theorem Named.relabelled {ip : Entry} {edit : Dinode -> Dinode} {old new : State}
    (named : Named old) (table : Table [ip] old new) (same : new.disk = old.disk)
    (found : Findable old (new.entry ip).inum)
    (clean : (new.entry ip).node = new.disk.node (new.entry ip).inum)
    (type : ∀ node, (edit node).type = node.type)
    (addrs : ∀ node, (edit node).addrs = node.addrs)
    (size : ∀ node, (edit node).size = node.size) :
    Named ((new.updated sb ip edit).releasesleep ip) := by
  have disk : ((new.updated sb ip edit).releasesleep ip).disk =
      old.disk.setNode (new.entry ip).inum (edit (old.disk.node (new.entry ip).inum)) := by
    rw [← same, ← clean]
    exact @updated_disk sb new ip edit
  have ref : ∀ jp, (((new.updated sb ip edit).releasesleep ip).entry jp).ref =
      (new.entry jp).ref := fun jp =>
    (setInode_field Inode.ref (by rfl) jp).trans (updated_refreshed.ref jp)
  have inum : ∀ jp, (((new.updated sb ip edit).releasesleep ip).entry jp).inum =
      (new.entry jp).inum := fun jp =>
    (setInode_field Inode.inum (by rfl) jp).trans (updated_refreshed.inum jp)
  have types : ∀ number, (((new.updated sb ip edit).releasesleep ip).disk.node number).type =
      (old.disk.node number).type := by
    intro number
    rw [disk]
    by_cases here : number = (new.entry ip).inum
    · rw [here, Volume.setNode_self, type]
    · rw [Volume.setNode_other here]
  refine named.carry types ?_ ?_ ?_
  · intro number
    rw [disk]
    exact Volume.setNode_contents (type _) (addrs _) (size _) number
  · intro jp referenced
    rw [ref] at referenced
    rw [inum]
    by_cases here : jp = ip
    · exact here ▸ found
    · have before := table.ref jp
      rw [List.count_eq_zero_of_not_mem (mt List.mem_singleton.mp here)] at before
      have positive : 0 < (old.entry jp).ref := by omega
      exact table.inum jp positive ▸ .used positive
  · intro number kept
    by_cases here : number = (new.entry ip).inum
    · refine Or.inr (Or.inr ⟨ip, ?_, ?_⟩)
      · rw [ref]
        exact table.mem_referenced List.mem_cons_self
      · rw [inum, here]
    · rcases kept with free | linked | ⟨jp, positive, number'⟩
      · exact Or.inl ((types number).trans free)
      · refine Or.inr (Or.inl ?_)
        rwa [disk, Volume.setNode_other here]
      · refine Or.inr (Or.inr ⟨jp, ?_, ?_⟩)
        · rw [ref]
          exact table.referenced positive
        · rw [inum, table.inum jp positive, number']

/-! ## What an executable file is read for -/

section Exec

variable {ip : Entry}

section

variable (calm : Calm sb state.transactions blocks after) (held : Held p ip after)

include calm held

theorem Calm.reads_readi {off n : Nat} (small : off < 2 ^ 32) (short : n < 2 ^ 32) :
    Reads stop after (Fs.readi sb ip Sink.kernel off n) :=
  fun _ all => calm.readi held small short (fun _ _ => all _) fun _ => all _

theorem Calm.reads_loadseg (offset sz : Nat) : Reads stop after (loadseg sb ip offset sz) := by
  refine Reads.bind (Reads.firstSome fun page => Reads.bind ?_ fun _ => Reads.pure _)
    fun _ => Reads.pure _
  refine calm.reads_readi held (mod_lt _ (by decide)) ?_
  exact lt_of_le_of_lt (min_le_right _ _) (by decide)

theorem Calm.reads_execSegment (memory : ExecMemory) (phoff index : Nat) :
    Reads stop after (execSegment sb ip memory phoff index) := by
  refine Reads.bind (calm.reads_readi held (mod_lt _ (by decide)) (by decide)) fun ph => ?_
  refine Reads.ite (Reads.pure _) (Reads.ite (Reads.pure _) (Reads.ite (Reads.pure _) ?_))
  refine Reads.ite (Reads.pure _) (Reads.ite (Reads.pure _) (Reads.ite (Reads.pure _) ?_))
  exact calm.reads_loadseg held _ _

theorem Calm.reads_execLoad (memory : ExecMemory) : Reads stop after (execLoad sb ip memory) := by
  refine Reads.bind (calm.reads_readi held (by decide) (by decide)) fun elf => ?_
  refine Reads.ite (Reads.pure _) (Reads.ite (Reads.pure _) (Reads.ite (Reads.pure _) ?_))
  refine Reads.bind (Reads.firstSome fun index => ?_) fun _ => Reads.pure _
  exact Reads.bind (calm.reads_execSegment held memory _ index) fun _ => Reads.pure _

end

end Exec

variable {dp ip : Entry} (regime : Regime sb stop good base count)

include regime

/-- The operation of a call ends. -/
theorem Alone.end_op (alone : Alone sb good past blocks after) (within : blocks.card ≤ count) :
    Meets () stop (Fs.end_op sb) (fun _ => AtRest sb good) after :=
  alone.toOp.end_op regime alone.before within alone.one fun rest _ => rest

theorem Alone.done (alone : Alone sb good past blocks after) (within : blocks.card ≤ count)
    (value : Int) : Meets () stop (do
      Fs.end_op sb
      pure value) (fun _ => AtRest sb good) after := by
  simp only [meets_do, meets_pure]
  exact alone.end_op regime within

/-- The end of a call with a locked inode. -/
theorem Alone.dropped (alone : Alone sb good past blocks after) (within : blocks.card ≤ count)
    (has : Has sb p blocks ip after) (value : Int) : Meets () stop (do
      Fs.iunlockput sb p ip
      Fs.end_op sb
      pure value) (fun _ => AtRest sb good) after := by
  simp only [meets_do, meets_pure]
  refine alone.iunlockput (regime.fits _ alone.before) within has fun last alone' _ => ?_
  exact alone'.end_op regime within

/-- The link count is taken back. -/
theorem Alone.linkBad (alone : Alone sb good past blocks after)
    (within : blocks.card ≤ count) (allowed : sb.IBLOCK (after.entry ip).inum ∈ blocks) :
    Meets () stop (linkBad sb p ip) (fun _ => AtRest sb good) after := by
  have fits := regime.fits _ alone.before
  simp only [Fs.linkBad, meets_do]
  refine alone.toOp.ilock fits within fun op1 _ held1 => ?_
  have has1 : Has sb p blocks ip (after.locked p ip) := by
    refine ⟨held1, ?_⟩
    rw [locked_entry_self]
    exact allowed
  simp only [meets_change]
  refine (alone.carry op1 locked_steady).iupdate fits within has1
    (by exact fun _ => ⟨rfl, rfl, rfl⟩) fun alone2 => ?_
  have result := alone2.dropped regime within
    (has1.refreshed updated_refreshed (Finset.Subset.refl _)) (-1)
  simpa only [meets_do] using result

/-- `sys_link` once the link has been counted. -/
theorem Alone.linkAt (alone : Alone sb good past blocks after)
    (grew : Grew base 1 blocks) (safe : Named after ∨ Everywhere sb blocks)
    (cwd : ∀ jp, (after.proc p).cwd = some jp -> 0 < (after.entry jp).ref)
    (referenced : 0 < (after.entry ip).ref)
    (allowed : sb.IBLOCK (after.entry ip).inum ∈ blocks) {target : Path} :
    Meets () stop (linkAt sb p ip target) (fun _ => AtRest sb good) after := by
  have room := regime.room
  have fits := regime.fits _ alone.before
  have card := grew.card
  simp only [Fs.linkAt, nameiparent, meets_do]
  refine alone.namex fits (by omega) safe cwd true ?_ ?_
  · intro first op1 walk
    refine (alone.carry op1 walk.steady).linkBad regime (by omega) ?_
    rw [walk.table.inum ip referenced]
    exact allowed
  · intro dp name first op1 walk
    simp only [meets_do]
    refine (alone.carry op1 walk.steady).ilock fits (by omega) fun larger grew1 alone2 _ parent =>
      ?_
    have card1 := grew1.card
    have same : ∀ jp, ((first.locked p dp).entry jp).inum = (first.entry jp).inum :=
      setInode_field Inode.inum (by rfl)
    have referenced2 : 0 < ((first.locked p dp).entry ip).ref := by
      rw [show ((first.locked p dp).entry ip).ref = (first.entry ip).ref from
        setInode_field Inode.ref (by rfl) ip]
      exact walk.table.referenced referenced
    have allowed2 : sb.IBLOCK ((first.locked p dp).entry ip).inum ∈ larger := by
      rw [same, walk.table.inum ip referenced]
      exact grew1.subset allowed
    simp only [meets_look]
    refine alone2.dirlink fits (by omega) parent.toHeld parent.allowed ?_ ?_
    · intro number jp middle third got put op3
      have grew3 := Grew.insert larger (sb.IBLOCK (middle.entry jp).inum)
      have card3 := grew3.card
      rw [if_pos (by decide)]
      simp only [meets_do]
      refine op3.iunlockput fits (by omega) ?_ fun fourth op4 steady4 put' => ?_
      · rw [put.inum]
        exact grew3.subset (parent.got got).allowed
      have alone4 := alone2.carry op4 (got.steady.trans (put.steady.trans steady4))
      refine alone4.linkBad regime (by omega) ?_
      rw [put'.inum_released, put.inum, (got.kept referenced2).1]
      exact grew3.subset allowed2
    · intro data third few op3 steady3 linked
      have grew3 := @Grew.union larger data 2 few
      have card3 := grew3.card
      rw [if_neg (by decide)]
      simp only [meets_do]
      refine (alone2.carry op3 steady3).iunlockput fits (by omega)
        (parent.refreshed linked grew3.subset) fun fourth alone4 put => ?_
      refine alone4.iput fits (by omega) (fun _ => ?_) fun fifth op5 put' => ?_
      · rw [put.inum_released, linked.inum]
        exact grew3.subset allowed2
      · simpa only [meets_do] using (alone4.carry op5 put'.steady).done regime (by omega) 0

theorem Alone.unlinkAt (alone : Alone sb good past blocks after)
    (within : blocks.card + 2 ≤ count) (parent : Has sb p blocks dp after)
    (has : Has sb p blocks ip after) (different : dp ≠ ip) {off : Nat} {type : Int}
    (aligned : DESIZE ∣ off) (small : off < 2 ^ 32) :
    Meets () stop (unlinkAt sb p dp ip off type) (fun _ => AtRest sb good) after := by
  have fits := regime.fits _ alone.before
  have slots := card_slotsOf_entry aligned
  simp only [Fs.unlinkAt, meets_do]
  refine alone.writei fits (by omega) parent.toHeld parent.allowed small (by decide) ?_
  intro value data first few op1 steady1 refreshed1
  have grew := @Grew.union blocks data 2 (few.trans slots)
  have card := grew.card
  have alone1 := alone.carry op1 steady1
  have parent1 := parent.refreshed refreshed1 grew.subset
  have has1 := has.refreshed refreshed1 grew.subset
  split
  · exact op1.panics fits (by omega) (by decide)
  -- What remains is the same whether or not the link count of the parent changes.
  have finish : ∀ second, Alone sb good past (blocks ∪ data) second ->
      Has sb p (blocks ∪ data) dp second -> Has sb p (blocks ∪ data) ip second ->
      Meets () stop (do
        Fs.iunlockput sb p dp
        change (·.edit ip Dinode.unlink)
        Fs.iupdate sb ip
        Fs.iunlockput sb p ip
        Fs.end_op sb
        pure 0) (fun (_ : Int) => AtRest sb good) second := by
    intro second alone2 parent2 has2
    simp only [meets_do]
    refine alone2.iunlockput fits (by omega) parent2 fun third alone3 put => ?_
    have has3 := has2.put different.symm put
    simp only [meets_change]
    refine alone3.iupdate fits (by omega) has3 (by exact fun _ => ⟨rfl, rfl, rfl⟩)
      fun alone4 => ?_
    have result := alone4.dropped regime (by omega)
      (has3.refreshed updated_refreshed (Finset.Subset.refl _)) 0
    simpa only [meets_do] using result
  split
  · simp only [meets_do, meets_change]
    refine alone1.iupdate fits (by omega) parent1 (by exact fun _ => ⟨rfl, rfl, rfl⟩)
      fun alone2 => ?_
    have result := finish _ alone2 (parent1.refreshed updated_refreshed (Finset.Subset.refl _))
      (has1.refreshed updated_refreshed (Finset.Subset.refl _))
    simpa only [meets_do, meets_change] using result
  · exact finish first alone1 parent1 has1

variable (callable : Callable sb good base p state)

include callable

omit regime in
/-- The start of a call. -/
theorem Callable.begin_op {goal : Unit -> State -> Prop}
    (next : Alone sb good state.transactions base state.beginOp ->
      (Named state.beginOp ∨ Everywhere sb base) ->
      (∀ ip, (state.beginOp.proc p).cwd = some ip -> 0 < (state.beginOp.entry ip).ref) ->
      goal () state.beginOp) : Meets () stop begin_op goal state := by
  refine callable.quiet.begin_op fun op one => next
    ⟨op, callable.good, one, callable.files.same rfl⟩ ?_ callable.cwd
  exact callable.safe.imp_left fun named =>
    named.carry (fun _ => rfl) (fun _ => rfl) (fun _ => @Findable.used state _) fun _ => id

/-- The start of a call that looks up a path. -/
theorem Callable.lookup (parent : Bool) {path : Path}
    {goal : Option (Entry × List UInt8) -> State -> Prop}
    (missing : ∀ after, Alone sb good state.transactions base after -> goal none after)
    (found : ∀ ip name after, Alone sb good state.transactions base after ->
      Walk sb base [ip] state.beginOp after -> goal (some (ip, name)) after) :
    Meets () stop Fs.begin_op
      (fun _ now => Meets () stop (namex sb p path parent) goal now) state := by
  refine callable.begin_op fun alone safe cwd => ?_
  refine alone.namex (regime.fits _ callable.good) ?_ safe cwd parent ?_ ?_
  · exact le_trans (le_add_right _ _) regime.room
  · exact fun after op walk => missing after (alone.carry op walk.steady)
  · exact fun ip name after op walk => found ip name after
      (alone.carry op walk.steady) walk

/-! ## `mkdir` and `mknod` -/

theorem Callable.makeNode {type major minor : Int} :
    Meets () stop (makeNode sb p path type major minor) (fun _ => AtRest sb good) state := by
  have room := regime.room
  have cost := createCost_le type
  simp only [Fs.makeNode, meets_do]
  refine callable.begin_op fun alone safe cwd => ?_
  cases path with
  | none => exact alone.done regime (by omega) _
  | some path =>
    simp only [meets_do]
    refine alone.create (regime.fits _ callable.good) (by omega) safe cwd ?_ ?_
    · intro larger after grew alone'
      have card := grew.card
      exact alone'.done regime (by omega) _
    · intro ip larger after grew alone' has
      have card := grew.card
      exact alone'.dropped regime (by omega) has _

/-! ## `link` -/

theorem Callable.sys_link {source target : Option Path} :
    Meets () stop (sys_link sb p source target) (fun _ => AtRest sb good) state := by
  have room := regime.room
  have fits := regime.fits _ callable.good
  cases source with
  | none => exact callable.toAtRest
  | some source =>
    cases target with
    | none => exact callable.toAtRest
    | some target =>
      simp only [Fs.sys_link, namei, meets_do]
      refine callable.lookup regime false (fun after alone => alone.done regime (by omega) (-1)) ?_
      intro ip _ first alone1 walk
      simp only [meets_pure, map_some, meets_do]
      refine alone1.ilock fits (by omega) fun larger grew alone2 _ has2 => ?_
      have card := grew.card
      simp only [meets_look]
      split
      · exact alone2.dropped regime (by omega) has2 _
      simp only [meets_do, meets_change]
      refine alone2.iupdate fits (by omega) has2 (by exact fun _ => ⟨rfl, rfl, rfl⟩)
        fun alone3 => ?_
      refine alone3.iunlock fits (by omega) fun alone4 => ?_
      -- The second lookup begins with one more link and one more reference.
      have locked : Walk sb base [ip] state.beginOp (first.locked p ip) := walk.locked
      have entry : ∀ jp,
          ((((first.locked p ip).updated sb ip Dinode.link).releasesleep ip).entry jp).ref =
            ((first.locked p ip).entry jp).ref := fun jp =>
        (setInode_field Inode.ref (by rfl) jp).trans (updated_refreshed.ref jp)
      refine alone4.linkAt regime grew ?_ ?_ ?_ ?_
      · rcases locked.safe with ⟨same, named, found⟩ | everywhere
        · refine Or.inl (named.relabelled locked.table same (found ip List.mem_cons_self)
            (alone2.settled.clean ip has2.referenced has2.valid) ?_ ?_ ?_) <;>
          exact fun _ => rfl
        · exact Or.inr fun inum inside => grew.subset (everywhere inum inside)
      · intro jp here
        have before : (first.proc p).cwd = some jp := here
        rw [walk.steady.proc] at before
        rw [entry]
        exact locked.table.referenced (callable.cwd jp before)
      · rw [entry]
        exact has2.referenced
      · have number :
            ((((first.locked p ip).updated sb ip Dinode.link).releasesleep ip).entry ip).inum =
              ((first.locked p ip).entry ip).inum :=
          (setInode_field Inode.inum (by rfl) ip).trans (updated_refreshed.inum ip)
        rw [number]
        exact has2.allowed

/-! ## `unlink` -/

theorem Callable.sys_unlink :
    Meets () stop (sys_unlink sb p path) (fun _ => AtRest sb good) state := by
  have room := regime.room
  have fits := regime.fits _ callable.good
  cases path with
  | none => exact callable.toAtRest
  | some path =>
    simp only [Fs.sys_unlink, nameiparent, meets_do]
    refine callable.lookup regime true (fun after alone => alone.done regime (by omega) (-1)) ?_
    intro dp name first alone1 _
    simp only [meets_do]
    refine alone1.ilock fits (by omega) fun larger1 grew1 alone2 _ parent2 => ?_
    have card1 := grew1.card
    have bad := alone2.dropped regime (by omega) parent2 (-1)
    split
    · exact bad
    simp only [meets_do]
    refine alone2.dirlookup fits (by omega) parent2.toHeld bad ?_
    intro off ip second _ names op3 got
    have listed : off ∈ offsets 0 ((first.locked p dp).entry dp).node.size := by
      rw [alone2.settled.clean dp parent2.referenced parent2.valid]
      exact names.entry
    have small := alone2.offset_lt parent2.toHeld listed
    obtain ⟨index, _, _, rfl⟩ := mem_offsets.mp names.entry
    simp only [meets_do]
    refine (alone2.carry op3 got.steady).ilock fits (by omega) fun larger2 grew2 alone4 free has4 =>
      ?_
    have card2 := grew2.card
    obtain ⟨different, parent4⟩ := (parent2.got got).beside free grew2.subset
    simp only [meets_look]
    split
    · exact alone4.panics fits (by omega) (by decide)
    have proceed : Meets () stop (Fs.unlinkAt sb p dp ip (DESIZE * index)
        ((second.locked p ip).entry ip).node.type) (fun _ => AtRest sb good)
        (second.locked p ip) :=
      alone4.unlinkAt regime (by omega) parent4 has4 different (dvd_mul_right _ _)
        (by omega)
    have refuse : Meets () stop (do
        Fs.iunlockput sb p ip
        Fs.unlinkBad sb p dp) (fun _ => AtRest sb good) (second.locked p ip) := by
      simp only [meets_do]
      refine alone4.iunlockput fits (by omega) has4 fun third alone5 put => ?_
      exact alone5.dropped regime (by omega) (parent4.put different put) _
    split
    · simp only [meets_do, meets_pure]
      refine alone4.isdirempty fits (by omega) has4.toHeld fun value => ?_
      cases value with
      | true => simpa only [Bool.not_true, Bool.false_eq_true, if_false] using proceed
      | false => simpa only [Bool.not_false, if_true] using refuse
    · simpa only [meets_do, meets_pure, Bool.false_eq_true, if_false] using proceed

/-! ## `exec` -/

theorem Callable.sys_exec {memory : ExecMemory} :
    Meets () stop (sys_exec sb p path memory) (fun _ => AtRest sb good) state := by
  have room := regime.room
  have fits := regime.fits _ callable.good
  cases path with
  | none => exact callable.toAtRest
  | some path =>
    simp only [Fs.sys_exec, namei, meets_do]
    refine callable.lookup regime false (fun after alone => alone.done regime (by omega) (-1)) ?_
    intro ip _ first alone1 _
    simp only [meets_pure, map_some, meets_do]
    refine alone1.ilock fits (by omega) fun larger grew alone2 _ has2 => ?_
    have card := grew.card
    refine alone2.toCalm.reads_execLoad has2.toHeld memory _ fun loaded => ?_
    refine alone2.iunlockput fits (by omega) has2 fun last alone3 _ => ?_
    refine (alone3.end_op regime (by omega)).mono fun _ final rest => ?_
    cases loaded <;> cases memory.stack <;> exact rest

/-! ## `chdir` -/

theorem Callable.sys_chdir :
    Meets () stop (sys_chdir sb p path) (fun _ => AtRest sb good) state := by
  have room := regime.room
  have fits := regime.fits _ callable.good
  simp only [Fs.sys_chdir, meets_do]
  cases path with
  | none => exact callable.begin_op fun alone _ _ => alone.done regime (by omega) _
  | some path =>
    simp only [namei, meets_do]
    refine callable.lookup regime false (fun after alone => alone.done regime (by omega) (-1)) ?_
    intro ip _ first alone1 _
    simp only [meets_pure, map_some, meets_do]
    refine alone1.ilock fits (by omega) fun larger1 grew1 alone2 _ has2 => ?_
    have card1 := grew1.card
    simp only [meets_look]
    split
    · exact alone2.dropped regime (by omega) has2 _
    simp only [meets_do]
    refine alone2.iunlock fits (by omega) fun alone3 => ?_
    simp only [putCwd, meets_do, meets_look]
    generalize (first.locked p ip).releasesleep ip = middle at alone3 ⊢
    cases (middle.proc p).cwd with
    | none => exact alone3.blocked fits (by omega)
    | some old =>
      have grew3 := Grew.insert larger1 (sb.IBLOCK (middle.entry old).inum)
      have card3 := grew3.card
      refine (alone3.mono grew3.subset).iput fits (by omega)
        (fun _ => Finset.mem_insert_self _ _) fun last op4 put => ?_
      refine ((alone3.carry op4 put.steady).end_op regime (by omega)).mono
        fun _ final rest => ?_
      simp only [meets_change]
      exact (meets_pure _).mpr ⟨rest.quiet.elsewhere rfl rfl rfl rfl rfl rfl, rest.good⟩

end Calls

end Fs
end Xv6
