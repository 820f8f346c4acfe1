import Ece391.Fish.Board

/-!
# The pointers carry the list

A memory is linked through `ns` when `mp1_list_head` leads through these slots to `NULL` and they are
the ones whose location is not 0, which is how `mp1_malloc` tells them from the free ones. Every call
keeps a memory linked and does to its list what the board does, but an `RTC_ADD` at location 0.
-/

namespace Ece391.Fish

namespace Memory

variable {m : Memory} {ns : List Slot} {p : Option Slot}

/-- What the slots `ns` show. -/
def board (m : Memory) (ns : List Slot) : Board := ⟨ns.map fun i => (m.array i).toBlink, m.video⟩

structure Linked (m : Memory) (ns : List Slot) : Prop where
  path : Path m.next m.head ns
  used : ∀ i, (m.array i).location ≠ 0 ↔ i ∈ ns
  placed : ∀ i ∈ ns, (m.array i).location.toNat < numCells

theorem length_le_of_path (h : Path m.next p ns) : ns.length ≤ numCells := by
  have hcard := h.nodup.length_le_card
  rwa [Fintype.card_fin] at hcard

theorem Linked.init (video : Nat → UInt8) : (Memory.init video).Linked [] where
  path := .nil
  used _ := iff_of_false (fun h => h rfl) List.not_mem_nil
  placed _ h := absurd h List.not_mem_nil

/-! ### Stores -/

section Stores

variable (m) (i : Slot) (b : BlinkStruct)

theorem store_self : (m.store i b).array i = b := Function.update_self _ _ _

theorem store_of_ne {i j : Slot} (h : j ≠ i) : (m.store i b).array j = m.array j :=
  Function.update_of_ne h _ _

theorem next_store : (m.store i b).next = Function.update m.next i b.next := by
  funext j
  by_cases h : j = i
  · rw [h, Function.update_self, next, store_self]
  · rw [Function.update_of_ne h, next, store_of_ne _ _ h]
    rfl

theorem next_store_same (h : b.next = m.next i) : (m.store i b).next = m.next := by
  rw [next_store, h, Function.update_eq_self]

end Stores

/-! ### The tasklet -/

theorem visit_eq (m : Memory) (i : Slot) :
    m.visit i =
      { m.store i ⟨(m.array i).tick, m.next i⟩ with video := (m.array i).toBlink.repaint m.video } := by
  unfold visit Blink.repaint
  dsimp only
  by_cases hdue : (m.array i).toBlink.due
  · have hcount : ¬0 < ((m.array i).countdown - 1).toInt := hdue
    rw [if_pos hdue, if_neg hcount, Blink.char_tick_of_due hdue, Blink.tick_of_due hdue]
    by_cases hon : (m.array i).toBlink.isOn
    · have hstatus : (m.array i).status &&& 1 ≠ 0 := hon
      rw [if_pos hon, if_pos hon, if_pos hstatus]
      rfl
    · have hstatus : ¬(m.array i).status &&& 1 ≠ 0 := hon
      rw [if_neg hon, if_neg hon, if_neg hstatus]
      rfl
  · have hcount : 0 < ((m.array i).countdown - 1).toInt := not_not.1 hdue
    rw [if_neg hdue, if_pos hcount, Blink.tick_of_not_due hdue]
    rfl

theorem next_visit (i : Slot) : (m.visit i).next = m.next := by
  rw [visit_eq]
  exact next_store_same m i _ rfl

theorem visit_self (i : Slot) : (m.visit i).array i = ⟨(m.array i).tick, m.next i⟩ := by
  rw [visit_eq]
  exact store_self m i _

theorem visit_of_ne {i j : Slot} (h : j ≠ i) : (m.visit i).array j = m.array j := by
  rw [visit_eq]
  exact store_of_ne m _ h

theorem taskletLoop_eq {fuel : Nat} (h : Path m.next p ns) (hfuel : ns.length ≤ fuel) :
    taskletLoop fuel p m = some (ns.foldl visit m) := by
  induction ns generalizing p m fuel with
  | nil =>
    rw [h.eq_none]
    cases fuel <;> rfl
  | cons i ns ih =>
    rw [h.head_eq]
    cases fuel with
    | zero => exact absurd hfuel (Nat.not_succ_le_zero _)
    | succ fuel =>
      have htail : Path (m.visit i).next ((m.visit i).next i) ns := by
        rw [next_visit]
        exact h.tail
      exact ih htail (Nat.le_of_succ_le_succ hfuel)

/-- A tick visits every slot of the list once, with what it held before. -/
theorem foldl_visit (hnodup : ns.Nodup) :
    (ns.foldl visit m).head = m.head ∧ (ns.foldl visit m).next = m.next ∧
      (∀ i ∈ ns, ((ns.foldl visit m).array i).toBlink = (m.array i).tick) ∧
      (∀ i ∉ ns, (ns.foldl visit m).array i = m.array i) ∧
      (ns.foldl visit m).video = (m.board ns).tick.video := by
  induction ns generalizing m with
  | nil => exact ⟨rfl, rfl, fun _ h => absurd h List.not_mem_nil, fun _ _ => rfl, rfl⟩
  | cons i ns ih =>
    rw [List.nodup_cons] at hnodup
    obtain ⟨hhead, hnext, hin, hout, hvideo⟩ := ih (m := m.visit i) hnodup.2
    rw [List.foldl_cons]
    refine ⟨?_, hnext.trans (next_visit i), ?_, ?_, ?_⟩
    · rw [hhead, visit_eq]
      rfl
    · intro j hj
      by_cases hji : j = i
      · rw [hji, hout i hnodup.1, visit_self]
      · have hmem : j ∈ ns := (List.mem_cons.1 hj).resolve_left hji
        rw [hin j hmem, visit_of_ne hji]
    · intro j hj
      rw [List.mem_cons, not_or] at hj
      rw [hout j hj.2, visit_of_ne hj.1]
    · have hsame : (m.visit i).board ns =
          ⟨ns.map fun j => (m.array j).toBlink, (m.array i).toBlink.repaint m.video⟩ := by
        unfold board
        congr 1
        · apply List.map_congr_left
          intro j hj
          rw [visit_of_ne (ne_of_mem_of_not_mem hj hnodup.1)]
        · rw [visit_eq]
      rw [hvideo, hsame]
      rfl

theorem Linked.tasklet {fuel : Nat} (h : m.Linked ns) (hfuel : numCells ≤ fuel) :
    ∃ m', m.tasklet fuel = some m' ∧ m'.Linked ns ∧ m'.board ns = (m.board ns).tick := by
  obtain ⟨hhead, hnext, hin, hout, hvideo⟩ := foldl_visit h.path.nodup (m := m)
  have hlocation : ∀ i, ((ns.foldl visit m).array i).location = (m.array i).location := by
    intro i
    by_cases hi : i ∈ ns
    · rw [hin i hi, Blink.tick_location]
    · rw [hout i hi]
  refine ⟨_, taskletLoop_eq h.path ((length_le_of_path h.path).trans hfuel), ⟨?_, ?_, ?_⟩, ?_⟩
  · rw [hhead, hnext]
    exact h.path
  · intro i
    rw [hlocation]
    exact h.used i
  · intro i hi
    rw [hlocation]
    exact h.placed i hi
  · unfold board Board.tick
    rw [hvideo]
    congr 1
    rw [List.map_map]
    apply List.map_congr_left
    exact hin

/-! ### Looking for a location -/

theorem findLoop_eq {ax : BitVec 16} {fuel : Nat} (h : Path m.next p ns) (hfuel : ns.length ≤ fuel) :
    m.findLoop ax fuel p = some (ns.find? fun i => (m.array i).location = ax) := by
  induction ns generalizing p fuel with
  | nil =>
    rw [h.eq_none]
    cases fuel <;> rfl
  | cons i ns ih =>
    rw [h.head_eq]
    cases fuel with
    | zero => exact absurd hfuel (Nat.not_succ_le_zero _)
    | succ fuel =>
      by_cases hi : (m.array i).location = ax
      · rw [findLoop, if_pos hi, List.find?_cons, decide_eq_true hi]
      · rw [findLoop, if_neg hi, List.find?_cons, decide_eq_false hi]
        exact ih h.tail (Nat.le_of_succ_le_succ hfuel)

theorem locate_board (ax : BitVec 16) :
    (m.board ns).locate ax =
      (ns.find? fun i => (m.array i).location = ax).map fun i => (m.array i).toBlink := by
  unfold Board.locate board
  rw [List.find?_map]
  rfl

theorem Linked.findHelper {ax : BitVec 16} {fuel : Nat} (h : m.Linked ns) (hfuel : numCells ≤ fuel) :
    m.findHelper fuel ax = some (ns.find? fun i => (m.array i).location = ax) :=
  findLoop_eq h.path ((length_le_of_path h.path).trans hfuel)

theorem Linked.find {user : BlinkStruct} {fuel : Nat} (h : m.Linked ns) (hfuel : numCells ≤ fuel) :
    m.call fuel (.find user) = some (((m.board ns).find user.toBlink).1, m) := by
  have hlocate : (m.board ns).locate user.location = _ := locate_board user.location
  unfold call ioctlFind Board.find
  dsimp only
  rw [h.findHelper hfuel, hlocate]
  cases ns.find? fun i => (m.array i).location = user.location <;> rfl

/-! ### Adding -/

theorem Linked.malloc_eq_none_iff (h : m.Linked ns) : m.malloc = none ↔ ns.length = numCells := by
  unfold malloc
  rw [List.find?_eq_none]
  constructor
  · intro hnone
    have hall : ∀ i : Slot, i ∈ ns := by
      intro i
      have hi := hnone i (List.mem_finRange i)
      rw [decide_eq_true_iff] at hi
      exact (h.used i).1 hi
    have hcard := List.Nodup.length_le_card (List.nodup_finRange numCells)
    have hsub := (List.nodup_finRange numCells).subperm fun i _ => hall i
    have hle := hsub.length_le
    rw [List.length_finRange] at hle
    exact le_antisymm (length_le_of_path h.path) hle
  · intro hlen i _ hi
    rw [decide_eq_true_iff] at hi
    have hnot : i ∉ ns := fun hmem => (h.used i).2 hmem hi
    have hnodup : (i :: ns).Nodup := List.nodup_cons.2 ⟨hnot, h.path.nodup⟩
    have hcard := hnodup.length_le_card
    rw [Fintype.card_fin, List.length_cons, hlen] at hcard
    exact absurd hcard (Nat.not_succ_le_self _)

theorem Linked.malloc_fresh (h : m.Linked ns) {i : Slot} (hi : m.malloc = some i) : i ∉ ns := by
  have hfree := List.find?_some hi
  rw [decide_eq_true_iff] at hfree
  exact fun hmem => (h.used i).2 hmem hfree

/-- A slot that is not in the list is filled and put in front. -/
theorem Linked.push {m' : Memory} {i : Slot} {b : BlinkStruct} (h : m.Linked ns) (hi : i ∉ ns)
    (harray : m'.array = (m.store i b).array) (hhead : m'.head = some i) (hnext : b.next = m.head)
    (hcorner : b.location ≠ 0) (hplace : b.location.toNat < numCells) :
    m'.Linked (i :: ns) ∧ (m'.board (i :: ns)).signs = b.toBlink :: (m.board ns).signs := by
  have hself : m'.array i = b := by rw [harray, store_self]
  have hother : ∀ j, j ≠ i → m'.array j = m.array j := fun j hj => by rw [harray, store_of_ne m b hj]
  have hold : ∀ j ∈ ns, m'.array j = m.array j := fun j hj => hother j (ne_of_mem_of_not_mem hj hi)
  have hlinks : m'.next = Function.update m.next i m.head := by
    rw [← hnext, ← next_store]
    unfold next
    rw [harray]
  refine ⟨⟨?_, ?_, ?_⟩, ?_⟩
  · rw [hhead, hlinks]
    exact h.path.push hi
  · intro j
    by_cases hj : j = i
    · rw [hj, hself]
      exact iff_of_true hcorner List.mem_cons_self
    · rw [hother j hj, List.mem_cons, or_iff_right hj]
      exact h.used j
  · intro j hj
    by_cases hji : j = i
    · rw [hji, hself]
      exact hplace
    · rw [hother j hji]
      exact h.placed j ((List.mem_cons.1 hj).resolve_left hji)
  · have hmap : ns.map (fun j => (m'.array j).toBlink) = ns.map fun j => (m.array j).toBlink :=
      List.map_congr_left fun j hj => by rw [hold j hj]
    unfold board
    rw [List.map_cons, hself, hmap]

theorem Linked.add {user : BlinkStruct} (h : m.Linked ns) (hcorner : user.location ≠ 0) :
    ∃ ns', (m.ioctlAdd user).1.Linked ns' ∧
      (m.board ns).add user.toBlink = (⟨(m.ioctlAdd user).2, none⟩, (m.ioctlAdd user).1.board ns') := by
  have hlength : (m.board ns).signs.length = ns.length := List.length_map _
  unfold ioctlAdd Board.add
  rw [hlength]
  by_cases hplace : numCells ≤ user.location.toNat
  · rw [if_pos hplace, if_pos (.inl hplace)]
    exact ⟨ns, h, rfl⟩
  · rw [if_neg hplace]
    cases hmalloc : m.malloc with
    | none =>
      rw [if_pos (.inr (h.malloc_eq_none_iff.1 hmalloc))]
      exact ⟨ns, h, rfl⟩
    | some i =>
      have hroom : ns.length ≠ numCells := fun hfull => by
        rw [h.malloc_eq_none_iff.2 hfull] at hmalloc
        cases hmalloc
      have hi := h.malloc_fresh hmalloc
      rw [if_neg (not_or.2 ⟨hplace, hroom⟩)]
      obtain ⟨b, hb⟩ : ∃ b : BlinkStruct, b = ⟨user.toBlink.fresh, m.head⟩ := ⟨_, rfl⟩
      obtain ⟨m', hm'⟩ : ∃ m' : Memory, m' =
          { m.store i b with
            head := some i, video := Function.update m.video user.offset user.onChar } := ⟨_, rfl⟩
      have hnext : b.next = m.head := by rw [hb]
      have hlocation : b.location = user.location := by rw [hb]; rfl
      have harray : m'.array = (m.store i b).array := by rw [hm']
      have hpush := h.push hi harray (by rw [hm']) hnext (by rwa [hlocation])
        (by rw [hlocation]; exact Nat.lt_of_not_le hplace)
      rw [hm', hb] at hpush
      exact ⟨i :: ns, hpush.1, Prod.ext rfl (Board.ext hpush.2.symm rfl)⟩

/-! ### Removing -/

theorem findPrev_eq {i : Slot} {pre post : List Slot} {fuel : Nat} {edx : Option Slot}
    (h : Path m.next (m.deref edx) (pre ++ i :: post)) (hfuel : pre.length < fuel) :
    m.findPrev i fuel edx = some (pre.getLast?.or edx) := by
  induction pre generalizing fuel edx with
  | nil =>
    cases fuel with
    | zero => exact absurd hfuel (Nat.not_lt_zero _)
    | succ fuel =>
      rw [findPrev, if_pos h.head_eq]
      rfl
  | cons j pre ih =>
    cases fuel with
    | zero => exact absurd hfuel (Nat.not_lt_zero _)
    | succ fuel =>
      have hnodup := h.nodup
      rw [List.cons_append, List.nodup_cons, List.mem_append, not_or, List.mem_cons, not_or] at hnodup
      have hhead : m.deref edx = some j := h.head_eq
      have hne : m.deref edx ≠ some i := by
        rw [hhead]
        exact fun heq => hnodup.1.2.1 (Option.some.inj heq)
      have htail : Path m.next (m.deref (some j)) (pre ++ i :: post) := h.tail
      rw [findPrev, if_neg hne, hhead, ih htail (Nat.lt_of_succ_lt_succ hfuel)]
      cases hlast : pre.getLast? with
      | none =>
        rw [List.getLast?_eq_none_iff.1 hlast]
        rfl
      | some k => rw [List.getLast?_cons, hlast]; rfl

theorem assign_toBlink (edx value : Option Slot) (j : Slot) :
    ((m.assign edx value).array j).toBlink = (m.array j).toBlink := by
  cases edx with
  | none => rfl
  | some q =>
    by_cases hj : j = q
    · rw [hj, assign, store_self]
    · rw [assign, store_of_ne m _ hj]

theorem assign_video (edx value : Option Slot) : (m.assign edx value).video = m.video := by
  cases edx <;> rfl

/-- The slot `i` is linked over. -/
theorem path_assign {i : Slot} {pre post : List Slot} (h : Path m.next m.head (pre ++ i :: post)) :
    Path (m.assign pre.getLast? (m.next i)).next (m.assign pre.getLast? (m.next i)).head (pre ++ post) := by
  cases pre using List.reverseRecOn with
  | nil => exact h.tail
  | append_singleton qs q =>
    have hsplit : Path m.next m.head (qs ++ q :: i :: post) := by
      rw [List.append_cons]
      exact h
    rw [List.getLast?_concat, assign, next_store, ← List.append_cons]
    exact hsplit.unlink

/-- A slot of the list is linked over and cleared. -/
theorem Linked.unlink {i : Slot} {pre post : List Slot} (h : m.Linked (pre ++ i :: post)) :
    ((m.assign pre.getLast? (m.next i)).free i).Linked (pre ++ post) ∧
      ∀ j ∈ pre ++ post,
        (((m.assign pre.getLast? (m.next i)).free i).array j).toBlink = (m.array j).toBlink := by
  have hnot : i ∉ pre ++ post := (List.nodup_middle.1 h.path.nodup).notMem
  have hmem : ∀ j, j ≠ i → (j ∈ pre ++ i :: post ↔ j ∈ pre ++ post) := by
    intro j hj
    simp only [List.mem_append, List.mem_cons, hj, false_or]
  obtain ⟨u, hu⟩ : ∃ u, u = m.assign pre.getLast? (m.next i) := ⟨_, rfl⟩
  have hblink : ∀ j, (u.array j).toBlink = (m.array j).toBlink := fun j => by
    rw [hu]
    exact assign_toBlink _ _ j
  have hpath : Path u.next u.head (pre ++ post) := by
    rw [hu]
    exact path_assign h.path
  rw [← hu]
  have hother : ∀ j, j ≠ i → ((u.free i).array j).toBlink = (m.array j).toBlink := by
    intro j hj
    rw [free, store_of_ne u _ hj]
    exact hblink j
  refine ⟨⟨?_, ?_, ?_⟩, fun j hj => hother j (ne_of_mem_of_not_mem hj hnot)⟩
  · rw [free, next_store]
    exact hpath.update_other hnot
  · intro j
    by_cases hj : j = i
    · rw [hj, free, store_self]
      exact iff_of_false (fun hzero => hzero rfl) hnot
    · rw [hother j hj, ← hmem j hj]
      exact h.used j
  · intro j hj
    have hji := ne_of_mem_of_not_mem hj hnot
    rw [hother j hji]
    exact h.placed j ((hmem j hji).2 hj)

theorem Linked.remove {fuel : Nat} (h : m.Linked ns) (arg : BitVec 32) (hfuel : numCells ≤ fuel) :
    ∃ m' ns' r, m.ioctlRemove fuel arg = some (m', r) ∧ m'.Linked ns' ∧
      (m.board ns).remove (arg.setWidth 16) = (⟨r, none⟩, m'.board ns') := by
  unfold ioctlRemove Board.remove
  rw [h.findHelper hfuel, locate_board]
  cases hfind : ns.find? fun i => (m.array i).location = arg.setWidth 16 with
  | none => exact ⟨m, ns, -1, rfl, h, rfl⟩
  | some i =>
    obtain ⟨hi, pre, post, rfl, hpre⟩ := List.find?_eq_some_iff_append.1 hfind
    have hlength : pre.length < fuel := by
      have hle := (length_le_of_path h.path).trans hfuel
      rw [List.length_append, List.length_cons] at hle
      omega
    have hprev : m.findPrev i fuel none = some pre.getLast? := by
      rw [findPrev_eq h.path hlength, Option.or_none]
    obtain ⟨hlinked, hblink⟩ := h.unlink
    refine ⟨_, pre ++ post, 0, ?_, hlinked, ?_⟩
    · rw [Option.bind_eq_bind, Option.bind_some]
      dsimp only
      rw [hprev]
      rfl
    · have herase : ((pre ++ i :: post).map fun j => (m.array j).toBlink).eraseP
          (fun b => b.location = arg.setWidth 16) = (pre ++ post).map fun j => (m.array j).toBlink := by
        have hkeep : ∀ j ∈ pre, ¬((fun b : Blink => decide (b.location = arg.setWidth 16)) ∘
            fun j => (m.array j).toBlink) j = true := fun j hj => by
          have hne := hpre j hj
          rw [Bool.not_eq_true', decide_eq_false_iff_not] at hne
          rwa [Function.comp_apply, decide_eq_true_iff]
        rw [List.eraseP_map, List.eraseP_append_right _ hkeep]
        exact congrArg (fun l => (pre ++ l).map _) (List.eraseP_cons_of_pos hi)
      rw [Option.map_some, if_pos Option.isSome_some]
      refine Prod.ext rfl (Board.ext ?_ (assign_video _ _).symm)
      exact herase.trans (List.map_congr_left fun j hj => (hblink j hj).symm)

/-! ### Synchronising -/

/-- The first of the characters at `dst` is replaced where it stands. -/
theorem replaceF_eq {dst : BitVec 16} {i : Slot} {g : Blink → Blink} (hnodup : ns.Nodup)
    (hfind : (ns.find? fun j => (m.array j).location = dst) = some i) :
    (ns.map fun j => (m.array j).toBlink).replaceF
        (fun c => if c.location = dst then some (g c) else none) =
      ns.map fun j => if j = i then g (m.array j).toBlink else (m.array j).toBlink := by
  induction ns with
  | nil => cases hfind
  | cons j ns ih =>
    rw [List.nodup_cons] at hnodup
    rw [List.find?_cons] at hfind
    rw [List.map_cons, List.map_cons, List.replaceF_cons]
    by_cases hj : (m.array j).location = dst
    · rw [decide_eq_true hj] at hfind
      cases hfind
      have hrest : ns.map (fun k => (m.array k).toBlink) =
          ns.map fun k => if k = i then g (m.array k).toBlink else (m.array k).toBlink :=
        List.map_congr_left fun k hk => (if_neg (ne_of_mem_of_not_mem hk hnodup.1)).symm
      rw [if_pos hj, if_pos rfl, ← hrest]
    · rw [decide_eq_false hj] at hfind
      replace hfind : (ns.find? fun k => (m.array k).location = dst) = some i := hfind
      have hi := List.find?_some hfind
      rw [decide_eq_true_iff] at hi
      have hne : j ≠ i := fun heq => hj (heq ▸ hi)
      rw [if_neg hj, if_neg hne, ← ih hnodup.2 hfind]

/-- The flags of `testb` never make `cmovl` move. -/
theorem sign_testb (status : BitVec 16) : (status.setWidth 8 &&& (1 : BitVec 8)).msb = false := by
  rw [BitVec.msb_and]
  exact Bool.and_false _

theorem Linked.sync {fuel : Nat} (h : m.Linked ns) (arg : BitVec 32) (hfuel : numCells ≤ fuel) :
    ∃ m' r, m.ioctlSync fuel arg = some (m', r) ∧ m'.Linked ns ∧
      (m.board ns).sync ((arg >>> 16).setWidth 16) (arg.setWidth 16) = (⟨r, none⟩, m'.board ns) := by
  unfold ioctlSync Board.sync
  rw [h.findHelper hfuel, h.findHelper hfuel, locate_board, locate_board]
  cases hsrc : ns.find? fun i => (m.array i).location = (arg >>> 16).setWidth 16 with
  | none => exact ⟨m, -1, rfl, h, rfl⟩
  | some esi =>
    cases hdst : ns.find? fun i => (m.array i).location = arg.setWidth 16 with
    | none => exact ⟨m, -1, rfl, h, rfl⟩
    | some edi =>
      obtain ⟨d, hd⟩ : ∃ d : BlinkStruct,
          d = ⟨(m.array edi).toBlink.synced (m.array esi).toBlink, m.next edi⟩ := ⟨_, rfl⟩
      have hlocation : ∀ j, ((m.store edi d).array j).location = (m.array j).location := by
        intro j
        by_cases hj : j = edi
        · rw [hj, store_self, hd]
          rfl
        · rw [store_of_ne m d hj]
      have hlinked : ((m.store edi d).poke (m.array edi).offset (m.array edi).offChar).Linked ns := by
        refine ⟨?_, fun j => ?_, fun j hj => ?_⟩
        · have hsame := next_store_same m edi d (by rw [hd])
          have hpath := h.path
          rw [← hsame] at hpath
          exact hpath
        · exact (not_congr (Eq.congr_left (hlocation j))).trans (h.used j)
        · exact (hlocation j).symm ▸ h.placed j hj
      have hsigns : (m.board ns).signs.replaceF (fun c => if c.location = arg.setWidth 16 then
          some (c.synced (m.array esi).toBlink) else none) =
            ((m.store edi d).board ns).signs := by
        refine (replaceF_eq h.path.nodup hdst).trans (List.map_congr_left fun j _ => ?_)
        by_cases hj : j = edi
        · rw [if_pos hj, hj, store_self, hd]
        · rw [if_neg hj, store_of_ne m d hj]
      refine ⟨_, 0, ?_, hlinked, ?_⟩
      · rw [hd]
        dsimp only [Option.bind_eq_bind, Option.bind_some]
        rw [sign_testb]
        rfl
      · exact Prod.ext rfl (Board.ext hsigns rfl)

/-! ### Runs -/

theorem Linked.away {o : Nat} (h : m.Linked ns) (ho : ∀ location < numCells, o ≠ 2 * location) :
    (m.board ns).Away o := by
  intro c hc
  obtain ⟨i, hi, rfl⟩ := List.mem_map.1 hc
  exact (ho _ (h.placed i hi)).symm

theorem Linked.call {c : Call} {fuel : Nat} (h : m.Linked ns) (hc : c.AwayFromCorner)
    (hfuel : numCells ≤ fuel) :
    ∃ r m' ns', m.call fuel c = some (r, m') ∧ m'.Linked ns' ∧ (m.board ns).call c = (r, m'.board ns') := by
  cases c with
  | add user =>
    obtain ⟨ns', hlinked, hadd⟩ := h.add hc
    exact ⟨_, _, ns', rfl, hlinked, hadd⟩
  | remove arg =>
    obtain ⟨m', ns', r, hremove, hlinked, hboard⟩ := h.remove arg hfuel
    exact ⟨_, m', ns', by rw [Memory.call, hremove, Option.map_some], hlinked, hboard⟩
  | find user => exact ⟨_, m, ns, h.find hfuel, h, Prod.ext rfl (Board.find_snd _ _)⟩
  | sync arg =>
    obtain ⟨m', r, hsync, hlinked, hboard⟩ := h.sync arg hfuel
    exact ⟨_, m', ns, by rw [Memory.call, hsync, Option.map_some], hlinked, hboard⟩
  | tick =>
    obtain ⟨m', htick, hlinked, hboard⟩ := h.tasklet hfuel
    refine ⟨⟨0, none⟩, m', ns, ?_, hlinked, Prod.ext rfl hboard.symm⟩
    rw [Memory.call, htick, Option.map_some]

theorem Linked.calls {cs : List Call} {fuel : Nat} (h : m.Linked ns) (hcs : ∀ c ∈ cs, c.AwayFromCorner)
    (hfuel : numCells ≤ fuel) :
    ∃ rs m' ns', Memory.calls fuel cs m = some (rs, m') ∧ m'.Linked ns' ∧
      Board.calls cs (m.board ns) = (rs, m'.board ns') ∧
      ∀ o, (∀ location < numCells, o ≠ 2 * location) → m'.video o = m.video o := by
  induction cs generalizing m ns with
  | nil => exact ⟨[], m, ns, rfl, h, rfl, fun _ _ => rfl⟩
  | cons c cs ih =>
    obtain ⟨r, u, us, hcall, hulinked, huboard⟩ := h.call (hcs c List.mem_cons_self) hfuel
    obtain ⟨rs, m', ns', hcalls, hlinked, hboard, hvideo⟩ :=
      ih hulinked fun d hd => hcs d (List.mem_cons_of_mem _ hd)
    refine ⟨r :: rs, m', ns', ?_, hlinked, ?_, fun o ho => ?_⟩
    · rw [Memory.calls, hcall, Option.bind_eq_bind, Option.bind_some]
      dsimp only
      rw [hcalls]
      rfl
    · rw [Board.calls, huboard]
      dsimp only
      rw [hboard]
    · rw [hvideo o ho]
      exact (congrArg (fun r => r.2.video o) huboard).symm.trans ((h.away ho).call_video c ho)

/-- Whatever the program asks for away from the corner of the screen, its pointers carry the list of the
board, every walk over them ends, the answers and the screen are those of the board, and only characters of
the screen are written. -/
theorem pointers_carry_board (video : Nat → UInt8) (cs : List Call) (fuel : Nat)
    (hcs : ∀ c ∈ cs, c.AwayFromCorner) (hfuel : numCells ≤ fuel) :
    ∃ rs m ns, (Memory.init video).calls fuel cs = some (rs, m) ∧ m.Linked ns ∧
      Board.calls cs ⟨[], video⟩ = (rs, m.board ns) ∧
      ∀ o, (∀ location < numCells, o ≠ 2 * location) → m.video o = video o :=
  (Linked.init video).calls hcs hfuel

theorem pointers_carry_board_two :
    ∃ rs m ns, (Memory.init fun _ => 0).calls 2000
        [.add ⟨⟨540, 73, 77, 7, 6, 0, 0⟩, none⟩, .tick, .sync 0x28021c, .remove 540] = some (rs, m) ∧
      m.Linked ns ∧
      Board.calls [.add ⟨⟨540, 73, 77, 7, 6, 0, 0⟩, none⟩, .tick, .sync 0x28021c, .remove 540] ⟨[], fun _ => 0⟩ =
        (rs, m.board ns) ∧
      ∀ o, (∀ location < numCells, o ≠ 2 * location) → m.video o = 0 :=
  pointers_carry_board _ _ 2000 (by decide) le_rfl

/-! ### The corner -/

theorem taskletLoop_selfLink {i : Slot} (fuel : Nat) (h : m.next i = some i) :
    taskletLoop fuel (some i) m = none := by
  induction fuel generalizing m with
  | zero => rfl
  | succ fuel ih =>
    have hnext : (m.visit i).next i = some i := by rw [next_visit, h]
    rw [taskletLoop, hnext, ih hnext]

theorem findLoop_selfLink {i : Slot} {ax : BitVec 16} (fuel : Nat) (h : m.next i = some i)
    (hax : (m.array i).location ≠ ax) : m.findLoop ax fuel (some i) = none := by
  induction fuel with
  | zero => rfl
  | succ fuel ih => rw [findLoop, if_neg hax, h, ih]

theorem ioctlAdd_eq {user : BlinkStruct} {i : Slot} (hplace : user.location.toNat < numCells)
    (hmalloc : m.malloc = some i) :
    m.ioctlAdd user =
      ({ m.store i ⟨user.toBlink.fresh, m.head⟩ with
          head := some i, video := Function.update m.video user.offset user.onChar }, 0) := by
  rw [ioctlAdd, if_neg (Nat.not_le_of_lt hplace), hmalloc]
  rfl

/-- A character in the corner is taken for a free slot by the next `RTC_ADD`, which links the slot to
itself. As the two calls leave it, the list has no end: the tick does not return, and no search for a
location other than the last. -/
theorem corner_hangs (h : m.Linked ns) (hroom : ns.length < numCells) (corner user : BlinkStruct)
    (hcorner : corner.location = 0) (huser : user.location.toNat < numCells) :
    (m.ioctlAdd corner).2 = 0 ∧ ((m.ioctlAdd corner).1.ioctlAdd user).2 = 0 ∧
      ∀ fuel, ((m.ioctlAdd corner).1.ioctlAdd user).1.tasklet fuel = none ∧
        ∀ ax, ax ≠ user.location → ((m.ioctlAdd corner).1.ioctlAdd user).1.findHelper fuel ax = none := by
  cases hmalloc : m.malloc with
  | none => exact absurd (h.malloc_eq_none_iff.1 hmalloc) hroom.ne
  | some i =>
    have hplace : corner.location.toNat < numCells := by
      rw [hcorner]
      decide
    have hfirst := ioctlAdd_eq hplace hmalloc
    have hzero := List.find?_some hmalloc
    rw [decide_eq_true_iff] at hzero
    have hsame : ∀ j, ((m.ioctlAdd corner).1.array j).location = 0 ↔ (m.array j).location = 0 := by
      intro j
      have harray : (m.ioctlAdd corner).1.array = (m.store i ⟨corner.toBlink.fresh, m.head⟩).array := by
        rw [hfirst]
      rw [harray]
      by_cases hj : j = i
      · rw [hj, store_self]
        exact iff_of_true hcorner hzero
      · rw [store_of_ne m _ hj]
    have hagain : (m.ioctlAdd corner).1.malloc = some i := by
      rw [← hmalloc, malloc, malloc]
      simp only [hsame]
    have hsecond := ioctlAdd_eq huser hagain
    have hhead : (m.ioctlAdd corner).1.head = some i := congrArg (fun r => r.1.head) hfirst
    have hself : ((m.ioctlAdd corner).1.ioctlAdd user).1.array i = ⟨user.toBlink.fresh, some i⟩ := by
      rw [hsecond, ← hhead]
      exact store_self _ i _
    have hlink : ((m.ioctlAdd corner).1.ioctlAdd user).1.next i = some i := by rw [next, hself]
    have hstart : ((m.ioctlAdd corner).1.ioctlAdd user).1.head = some i :=
      congrArg (fun r => r.1.head) hsecond
    refine ⟨congrArg Prod.snd hfirst, congrArg Prod.snd hsecond, fun fuel => ⟨?_, fun ax hax => ?_⟩⟩
    · rw [tasklet, hstart]
      exact taskletLoop_selfLink fuel hlink
    · rw [findHelper, hstart]
      refine findLoop_selfLink fuel hlink fun heq => hax ?_
      rw [← heq, hself]
      rfl

def someLetter : BlinkStruct := ⟨⟨540, 73, 77, 7, 6, 0, 0⟩, none⟩

/-- One character blinks. -/
def letterShown : Memory := ((init fun _ => 0).ioctlAdd someLetter).1

theorem linked_letterShown : ∃ i, letterShown.Linked [i] := by
  have hcorner : someLetter.location ≠ 0 := by decide
  obtain ⟨ns, h, hadd⟩ := (Linked.init fun _ => 0).add hcorner
  have hboard : (letterShown.board ns).signs.length = 1 :=
    (congrArg (fun r => r.2.signs.length) hadd).symm
  obtain ⟨i, rfl⟩ := List.length_eq_one_iff.1 ((List.length_map _).symm.trans hboard)
  exact ⟨i, h⟩

/-- Beside it, one is put into the corner and one to the 85th place. -/
theorem corner_hangs_beside :
    ∃ corner user m, corner.location = 0 ∧ user.location = 85 ∧ letterShown.head ≠ none ∧
      m = ((letterShown.ioctlAdd corner).1.ioctlAdd user).1 ∧ (letterShown.ioctlAdd corner).2 = 0 ∧
      ((letterShown.ioctlAdd corner).1.ioctlAdd user).2 = 0 ∧
      ∀ fuel, m.tasklet fuel = none ∧ ∀ ax, ax ≠ 85 → m.findHelper fuel ax = none := by
  obtain ⟨i, hlinked⟩ := linked_letterShown
  have hhead : letterShown.head ≠ none := by
    rw [hlinked.path.head_eq]
    exact Option.some_ne_none i
  have hroom : [i].length < numCells := by
    rw [List.length_singleton]
    decide
  obtain ⟨hcorner, huser, hhangs⟩ := corner_hangs hlinked hroom
    ⟨⟨0, 67, 68, 7, 6, 0, 0⟩, none⟩ ⟨⟨85, 69, 70, 7, 6, 0, 0⟩, none⟩ rfl (by decide)
  exact ⟨_, _, _, rfl, rfl, hhead, rfl, hcorner, huser, hhangs⟩

end Memory

end Ece391.Fish
