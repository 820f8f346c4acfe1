import Ece391.Mp1.Ioctl

/-!
# What an event does

While the pointers are those of a list, every event has one of a few effects on the list, the blocks, the
score and the screen. A tick is its passes one after the other.
-/

namespace Ece391.Mp1

/-! ### The screen apart -/

section Pokes

variable (g : Game) (k : Kernel)

theorem pokeOffset_toNat {s t : BitVec 32} (hs : s.toNat < 65536) (ht : t.toNat < 65536) :
    (pokeOffset s t).toNat = videoOffset s.toNat t.toNat := by
  unfold pokeOffset videoOffset
  rw [BitVec.toNat_add, BitVec.toNat_mul, BitVec.toNat_mul]
  have htwo : (2 : BitVec 32).toNat = 2 := rfl
  have hrow : (160 : BitVec 32).toNat = 160 := rfl
  rw [htwo, hrow]
  omega

theorem drawLoop_eq (pic : List UInt8) (x : BitVec 32) : ∃ v, drawLoop pic x g = { g with video := v } := by
  induction pic generalizing x g with
  | nil => exact ⟨g.video, rfl⟩
  | cons ch pic ih =>
    obtain ⟨v, hv⟩ := ih (mp1Poke (pokeOffset x 24) ch g) (x + 1)
    exact ⟨v, hv⟩

theorem drawCities_eq : ∃ v, drawCities g = { g with video := v } := by
  unfold drawCities drawCity
  obtain ⟨v0, h0⟩ := drawLoop_eq g (if g.baseAlive 0 = 0 then deadBasePic else basePic) 18
  rw [h0]
  obtain ⟨v1, h1⟩ := drawLoop_eq { g with video := v0 } (if g.baseAlive 1 = 0 then deadBasePic else basePic) 38
  rw [h1]
  exact drawLoop_eq { g with video := v1 } _ 58

theorem redrawCitiesCrosshairs_eq :
    ∃ v, redrawCitiesCrosshairs k = { k with game := { k.game with video := v } } := by
  obtain ⟨v, hv⟩ := drawCities_eq k.game
  unfold redrawCitiesCrosshairs
  rw [hv]
  exact ⟨_, rfl⟩

end Pokes

/-! ### Effects -/

/-- The list and the place of a tick in it; no block is a missile and a word at once. -/
structure Kernel.Linked (k : Kernel) (ns : List Nat) : Prop where
  chain : Chain 0 k.game.next k.game.list ns
  cursor : ∀ cur prev, k.cursor = some (cur, prev) →
    ∃ pre post, ns = pre ++ cur :: post ∧ prev = pre.getLastD 0
  apart : ∀ p ∈ ns, k.word p = none

def Event.added : Event → Option (Nat × Missile)
  | .ioctl _ cmd h => if cmd.toNat = 1 ∧ h.block ≠ 0 then h.copied.map fun m => (h.block, m) else none
  | _ => none

/-- The call is a `mp1_ioctl_getstatus` that gives the player the status. -/
def Event.Answers : Event → Prop
  | .ioctl _ cmd h => cmd.toNat = 3 ∧ h.block ≠ 0 ∧ h.written = true
  | _ => False

instance : (e : Event) → Decidable e.Answers
  | .ioctl _ _ _ => inferInstanceAs (Decidable (_ ∧ _ ∧ _))
  | .tick => inferInstanceAs (Decidable False)
  | .pass => inferInstanceAs (Decidable False)

namespace Kernel

variable (k : Kernel)

/-- After `mp1_ioctl_addmissile`. -/
def added (p : Nat) (m : Missile) : Kernel :=
  { k with game := { k.game.store p { m with next := k.game.list } with list := p } }

/-- After `mp1_ioctl_endgame`, for the list `ns`. -/
def ended (ns : List Nat) : Kernel :=
  { k with game := { k.game with list := 0, missile := fun p => if p ∈ ns then none else k.game.missile p } }

/-- After the last pass of a tick. -/
def lastPass (g : Game) : Kernel := redrawCitiesCrosshairs { k with game := g, cursor := none }

/-- After another pass, with the cursor at `cur`. -/
def otherPass (g : Game) (cur prev : Nat) : Kernel := { k with game := g, cursor := some (cur, prev) }

end Kernel

/-- The pass over `m` at `cur` leaves the missiles `before` and `a` behind the cursor and `rest` in front. -/
structure Turned (k : Kernel) (pre : List Nat) (cur : Nat) (post : List Nat) (m : Missile) (g : Game)
    (before : List Nat) (a : Nat) (rest : List Nat) : Prop where
  at_cur : At k.game pre cur post (pre.getLastD 0)
  missile : k.game.missile cur = some m
  keep : ¬m.Doomed → before = pre ∧ a = cur ∧ rest = post
  remove : m.Doomed → before = [] ∧ a :: rest = pre ++ post
  chain : Chain 0 g.next g.list (before ++ a :: rest)
  gone : m.Doomed → g.missile cur = none
  beside : ∀ q, q ≠ cur → k.game.Beside g q
  visited : Visited k.game cur (pre ++ cur :: post) m g

/-- What an event does to a driver with the missiles `ns`. -/
inductive Kernel.Does (k : Kernel) (ns : List Nat) : Event → Kernel → List Nat → Prop where
  | startgame {arg cmd : BitVec 32} {h : Helpers} (hcmd : cmd.toNat = 0) :
    Does k ns (.ioctl arg cmd h) (mp1IoctlStartgame k).2 ns
  | movexhairs {arg cmd : BitVec 32} {h : Helpers} (hcmd : cmd.toNat = 2) :
    Does k ns (.ioctl arg cmd h) (mp1IoctlMovexhairs arg k).2 ns
  | addmissile {arg cmd : BitVec 32} {h : Helpers} {m : Missile} (hcmd : cmd.toNat = 1)
      (hcopied : h.copied = some m) (hp : h.block ≠ 0) (hfree : ¬k.Allocated h.block) (hcursor : k.cursor = none) :
    Does k ns (.ioctl arg cmd h) (k.added h.block m) (h.block :: ns)
  | getstatus {arg cmd : BitVec 32} {h : Helpers} (hanswers : (Event.ioctl arg cmd h).Answers)
      (hfree : ¬k.Allocated h.block) :
    Does k ns (.ioctl arg cmd h)
      { k with word := Function.update k.word h.block (some (statusWord k.game)) } ns
  | endgame {arg cmd : BitVec 32} {h : Helpers} (hcmd : cmd.toNat = 4) (hcursor : k.cursor = none) :
    Does k ns (.ioctl arg cmd h) (k.ended ns) []
  | nothing {arg cmd : BitVec 32} {h : Helpers} (hcmd : cmd.toNat ≠ 0 ∧ cmd.toNat ≠ 2 ∧ cmd.toNat ≠ 4)
      (hadded : (Event.ioctl arg cmd h).added = none) (hanswers : ¬(Event.ioctl arg cmd h).Answers) :
    Does k ns (.ioctl arg cmd h) k ns
  | idle (hns : ns = []) : Does k ns .tick (redrawCitiesCrosshairs k) ns
  | begin {p : Nat} {rest : List Nat} (hns : ns = p :: rest) :
    Does k ns .tick { k with cursor := some (p, 0) } ns
  | last {pre post before : List Nat} {cur a : Nat} {m : Missile} {g : Game}
      (hcursor : k.cursor = some (cur, pre.getLastD 0)) (hns : ns = pre ++ cur :: post)
      (hturned : Turned k pre cur post m g before a []) : Does k ns .pass (k.lastPass g) (before ++ [a])
  | on {pre post before rest : List Nat} {cur a c : Nat} {m : Missile} {g : Game}
      (hcursor : k.cursor = some (cur, pre.getLastD 0)) (hns : ns = pre ++ cur :: post)
      (hturned : Turned k pre cur post m g before a (c :: rest)) :
    Does k ns .pass (k.otherPass g c a) (before ++ a :: c :: rest)

section Does

variable {k k' : Kernel} {ns ns' : List Nat} {e : Event} {arg cmd : BitVec 32} {h : Helpers}

theorem mp1Free_ok {g : Game} {p : Nat} {m : Missile} (hp : p ≠ 0) (hm : g.missile p = some m) :
    mp1Free p g = .ok { g with missile := Function.update g.missile p none } := by
  unfold mp1Free
  rw [Game.load_ok hp hm, ok_bind]
  rfl

theorem free_store {p : Nat} (hp : p ≠ 0) (hfree : ¬k.Allocated p) (m : Missile) :
    ({ k with game := k.game.store p m } : Kernel).free p = .ok k := by
  have hmissile : k.game.missile p = none := Option.not_isSome_iff_eq_none.1 fun hs => hfree (Or.inl hs)
  have hword : k.word p = none := Option.not_isSome_iff_eq_none.1 fun hs => hfree (Or.inr hs)
  have hback : Function.update (k.game.store p m).missile p none = k.game.missile := by
    rw [Game.store, Function.update_idem, ← hmissile, Function.update_eq_self]
  unfold Kernel.free
  rw [if_neg hp]
  simp only [hword, Option.isSome_none, Bool.false_eq_true, if_false]
  rw [mp1Free_ok hp (k.game.store_self p m), ok_bind, hback]
  rfl

theorem free_word {p : Nat} (hp : p ≠ 0) (hfree : ¬k.Allocated p) (w : BitVec 32) :
    ({ k with word := Function.update k.word p (some w) } : Kernel).free p = .ok k := by
  have hword : k.word p = none := Option.not_isSome_iff_eq_none.1 fun hs => hfree (Or.inr hs)
  have hback : Function.update (Function.update k.word p (some w)) p none = k.word := by
    rw [Function.update_idem, ← hword, Function.update_eq_self]
  unfold Kernel.free
  rw [if_neg hp]
  simp only [Function.update_self, Option.isSome_some, if_true, hback]

/-- The loop of `mp1_ioctl_endgame` frees the list from `eax` on. -/
theorem freeLoop_eq {size eax : Nat} (hne : ns ≠ []) (hchain : Chain 0 k.game.next eax ns)
    (hapart : ∀ p ∈ ns, k.word p = none) (hsize : ns.length ≤ size) :
    freeLoop size eax k = .ok { k with game :=
      { k.game with missile := fun p => if p ∈ ns then none else k.game.missile p } } := by
  induction ns generalizing size eax k with
  | nil => exact absurd rfl hne
  | cons q ns ih =>
    obtain ⟨size, rfl⟩ : ∃ n, size = n + 1 :=
      Nat.exists_eq_succ_of_ne_zero (Nat.ne_of_gt (Nat.lt_of_lt_of_le (Nat.succ_pos _) hsize))
    have hnodup := hchain.nodup
    rw [List.nodup_cons] at hnodup
    obtain rfl := hchain.head_eq
    obtain ⟨r, hnext, hrest⟩ := hchain.tail
    obtain ⟨m, hm, rfl⟩ := Game.missile_of_next hnext
    obtain ⟨u, hu⟩ : ∃ u : Kernel, u =
        { k with game := { k.game with missile := Function.update k.game.missile eax none } } := ⟨_, rfl⟩
    have hfree : k.free eax = .ok u := by
      unfold Kernel.free
      rw [if_neg hchain.ne_null, hapart eax List.mem_cons_self]
      simp only [Option.isSome_none, Bool.false_eq_true, if_false]
      rw [mp1Free_ok hchain.ne_null hm, ok_bind, hu]
      rfl
    have hunext : u.game.next = Function.update k.game.next eax none := by
      rw [hu]
      exact Game.next_free k.game eax
    have huchain : Chain 0 u.game.next m.next ns := by
      rw [hunext]
      exact hrest.update_other hnodup.1
    have huword : ∀ p ∈ ns, u.word p = none := by
      rw [hu]
      exact fun p hp => hapart p (List.mem_cons_of_mem _ hp)
    rw [freeLoop, Game.load_ok hchain.ne_null hm, ok_bind, hfree, ok_bind]
    rcases ns with - | ⟨c, ns⟩
    · rw [if_pos huchain.eq_null, hu]
      have hone : Function.update k.game.missile eax none =
          fun p => if p ∈ [eax] then none else k.game.missile p := by
        funext p
        by_cases hp : p = eax
        · rw [hp, Function.update_self, if_pos List.mem_cons_self]
        · rw [Function.update_of_ne hp, if_neg (by simpa only [List.mem_singleton] using hp)]
      rw [hone]
      rfl
    · have hc : m.next ≠ 0 := by
        rw [huchain.head_eq]
        exact huchain.ne_null
      rw [if_neg hc, ih (List.cons_ne_nil _ _) huchain huword (Nat.le_of_succ_le_succ hsize), hu]
      have hall : (fun p => if p ∈ c :: ns then none else Function.update k.game.missile eax none p) =
          fun p => if p ∈ eax :: c :: ns then none else k.game.missile p := by
        funext p
        by_cases hp : p = eax
        · rw [hp, Function.update_self, if_pos List.mem_cons_self, ite_self]
        · rw [Function.update_of_ne hp]
          simp only [List.mem_cons, hp, false_or]
      simp only [hall]

theorem turn_eq {size cur prev a : Nat} {before rest : List Nat} {b : Pass}
    (hpass : iterateListLoop size cur prev k.game = .ok b)
    (heax : (if b.removed then b.game.list else cur) = a)
    (hchain : Chain 0 b.game.next b.game.list (before ++ a :: rest)) :
    turn size cur prev k = .ok (match rest with
      | [] => k.lastPass b.game
      | c :: _ => k.otherPass b.game c a) := by
  obtain ⟨m, hload, hlast, hon⟩ := nextMissile hchain
  unfold turn
  rw [hpass, ok_bind]
  simp only [heax]
  rw [hload, ok_bind]
  rcases rest with - | ⟨c, rest⟩
  · rw [if_pos (hlast rfl)]
    rfl
  · obtain ⟨hnext, hc, -⟩ := hon c rest rfl
    rw [if_neg (by rw [hnext]; exact hc), hnext]
    rfl

theorem turn_does (hl : k.Linked ns) {cur prev : Nat} (hcursor : k.cursor = some (cur, prev)) :
    (∃ k' ns', k.Does ns .pass k' ns' ∧ ∀ size, ns.length ≤ size → turn size cur prev k = .ok k') ∨
      LastLeaves ns k.game ∧ ∀ size, ns.length ≤ size → turn size cur prev k = .error .null := by
  obtain ⟨pre, post, hns, rfl⟩ := hl.cursor cur prev hcursor
  have hat : At k.game pre cur post (pre.getLastD 0) := ⟨by rw [← hns]; exact hl.chain, rfl⟩
  obtain ⟨m, hm⟩ := hat.missile
  obtain ⟨b, hb, hpassed, hvisited⟩ := iterateListLoop_visit hat hm (Nat.le_refl _)
  have hpass : ∀ size, ns.length ≤ size → iterateListLoop size cur (pre.getLastD 0) k.game = .ok b := by
    intro size hsize
    rw [hns] at hsize
    rw [← hb]
    exact iterateListLoop_size hat hsize (Nat.le_refl _)
  -- what is left to show once the turn has come to `a`
  have hgoes : ∀ before a rest, Turned k pre cur post m b.game before a rest →
      (if b.removed then b.game.list else cur) = a →
      ∃ k' ns', k.Does ns .pass k' ns' ∧
        ∀ size, ns.length ≤ size → turn size cur (pre.getLastD 0) k = .ok k' := by
    intro before a rest hturned heax
    rcases rest with - | ⟨c, rest⟩
    · exact ⟨_, _, .last hcursor hns hturned, fun size hsize => turn_eq (hpass size hsize) heax hturned.chain⟩
    · exact ⟨_, _, .on hcursor hns hturned, fun size hsize => turn_eq (hpass size hsize) heax hturned.chain⟩
  have hchain := hpassed.chain
  by_cases hdoomed : m.Doomed
  · have hremoved : b.removed = true := by rw [hpassed.removed, decide_eq_true hdoomed]
    rw [if_pos hdoomed] at hchain
    rcases hlist : pre ++ post with - | ⟨a, rest⟩
    · rw [hlist] at hchain
      obtain ⟨hpre, hpost⟩ := List.append_eq_nil_iff.1 hlist
      refine Or.inr ⟨⟨cur, m, by rw [hns, hpre, hpost, List.nil_append], hm, hdoomed⟩, fun size hsize => ?_⟩
      unfold turn
      rw [hpass size hsize, ok_bind]
      simp only [hremoved, if_true]
      rw [hchain.eq_null, Game.load, if_pos rfl, error_bind]
    · rw [hlist] at hchain
      refine Or.inl (hgoes [] a rest ⟨hat, hm, fun hkeep => absurd hdoomed hkeep, fun _ => ⟨rfl, hlist.symm⟩,
        hchain, hpassed.gone, hpassed.beside, hvisited⟩ ?_)
      rw [hremoved]
      exact hchain.head_eq
  · have hremoved : b.removed = false := by rw [hpassed.removed, decide_eq_false hdoomed]
    rw [if_neg hdoomed] at hchain
    refine Or.inl (hgoes pre cur post ⟨hat, hm, fun _ => ⟨rfl, rfl, rfl⟩, fun hd => absurd hd hdoomed, hchain,
      hpassed.gone, hpassed.beside, hvisited⟩ ?_)
    rw [hremoved]
    rfl

theorem Event.added_of_ne (hcmd : cmd.toNat ≠ 1) : (Event.ioctl arg cmd h).added = none :=
  if_neg fun hc => hcmd hc.1

theorem Event.not_answers_of_ne (hcmd : cmd.toNat ≠ 3) : ¬(Event.ioctl arg cmd h).Answers :=
  fun hanswers => hcmd hanswers.1

theorem ioctl_does (hl : k.Linked ns) (hpossible : k.Possible (.ioctl arg cmd h)) :
    ∃ k' ns', k.Does ns (.ioctl arg cmd h) k' ns' ∧
      ∀ size, ns.length ≤ size → k.next size (.ioctl arg cmd h) = .ok k' := by
  obtain ⟨hcursor, hfree⟩ := hpossible
  have hresult : ∀ (ret : BitVec 32) {k' : Kernel} {size : Nat}, mp1Ioctl size arg cmd h k = .ok (ret, k') →
      k.next size (.ioctl arg cmd h) = .ok k' := by
    intro ret k' size hrun
    simp only [Kernel.next, hrun, ok_bind]
    rfl
  rcases hcmd : cmd.toNat with _ | _ | _ | _ | _ | n
  case zero => exact ⟨_, _, .startgame hcmd, fun size _ => hresult 0 (by unfold mp1Ioctl; rw [hcmd]; rfl)⟩
  case succ.zero =>
    have hrun : ∀ size, mp1Ioctl size arg cmd h k = mp1IoctlAddmissile h k := fun size => by
      unfold mp1Ioctl
      rw [hcmd]
      rfl
    have hquiet : ¬(Event.ioctl arg cmd h).Answers := Event.not_answers_of_ne (by rw [hcmd]; decide)
    have hother : cmd.toNat ≠ 0 ∧ cmd.toNat ≠ 2 ∧ cmd.toNat ≠ 4 := by
      rw [hcmd]
      decide
    by_cases hp : h.block = 0
    · refine ⟨k, ns, .nothing hother (if_neg fun hc => hc.2 hp) hquiet, fun size _ => hresult (-1) ?_⟩
      rw [hrun, mp1IoctlAddmissile, if_pos hp, errorReturn, Kernel.free, if_pos hp]
      rfl
    rcases hcopied : h.copied with - | m
    · refine ⟨k, ns, .nothing hother ?_ hquiet, fun size _ => hresult (-1) ?_⟩
      · rw [Event.added, hcopied, Option.map_none, ite_self]
      · rw [hrun, mp1IoctlAddmissile, if_neg hp, hcopied]
        dsimp only
        rw [errorReturn, free_store hp hfree]
        rfl
    · refine ⟨_, _, .addmissile hcmd hcopied hp hfree hcursor, fun size _ => hresult 0 ?_⟩
      rw [hrun, mp1IoctlAddmissile, if_neg hp, hcopied]
      rfl
  case succ.succ.zero => exact ⟨_, _, .movexhairs hcmd, fun size _ => hresult 0 (by unfold mp1Ioctl; rw [hcmd]; rfl)⟩
  case succ.succ.succ.zero =>
    have hrun : ∀ size, mp1Ioctl size arg cmd h k = mp1IoctlGetstatus h k := fun size => by
      unfold mp1Ioctl
      rw [hcmd]
      rfl
    have hother : cmd.toNat ≠ 0 ∧ cmd.toNat ≠ 2 ∧ cmd.toNat ≠ 4 := by
      rw [hcmd]
      decide
    have hnone : (Event.ioctl arg cmd h).added = none := Event.added_of_ne (by rw [hcmd]; decide)
    by_cases hp : h.block = 0
    · refine ⟨k, ns, .nothing hother hnone fun ha => ha.2.1 hp, fun size _ => hresult (-1) ?_⟩
      rw [hrun, mp1IoctlGetstatus, if_pos hp, errorReturn, Kernel.free, if_pos hp]
      rfl
    rcases hwritten : h.written with - | -
    · refine ⟨k, ns, .nothing hother hnone fun ha => ?_, fun size _ => hresult (-1) ?_⟩
      · rw [Event.Answers, hwritten] at ha
        exact absurd ha.2.2 (by decide)
      · rw [hrun, mp1IoctlGetstatus, if_neg hp]
        dsimp only
        rw [hwritten, if_neg (by decide), errorReturn, free_word hp hfree]
        rfl
    · refine ⟨_, _, .getstatus ⟨hcmd, hp, hwritten⟩ hfree, fun size _ => hresult 0 ?_⟩
      rw [hrun, mp1IoctlGetstatus, if_neg hp]
      dsimp only
      rw [hwritten, if_pos rfl]
  case succ.succ.succ.succ.zero =>
    refine ⟨_, _, .endgame hcmd hcursor, fun size hsize => ?_⟩
    have hrun : mp1Ioctl size arg cmd h k = mp1IoctlEndgame size h k := by
      unfold mp1Ioctl
      rw [hcmd]
      rfl
    rcases hns : ns with - | ⟨p, rest⟩
    · have hlist := hl.chain
      rw [hns] at hlist
      have hsame : k.ended [] = k := by
        unfold Kernel.ended
        simp only [List.not_mem_nil, if_false]
        rw [← hlist.eq_null]
      rw [hsame]
      refine hresult h.eax ?_
      rw [hrun, mp1IoctlEndgame, if_pos hlist.eq_null]
    · have hlist : k.game.list ≠ 0 := by
        have hchain := hl.chain
        rw [hns] at hchain
        rw [hchain.head_eq]
        exact hchain.ne_null
      have hloop : freeLoop size k.game.list { k with game := { k.game with list := 0 } } =
          .ok (k.ended ns) :=
        freeLoop_eq (by rw [hns]; exact List.cons_ne_nil _ _) hl.chain hl.apart hsize
      rw [← hns]
      refine hresult 0 ?_
      rw [hrun, mp1IoctlEndgame, if_neg hlist, hloop]
      rfl
  case succ.succ.succ.succ.succ =>
    have hother : cmd.toNat ≠ 0 ∧ cmd.toNat ≠ 2 ∧ cmd.toNat ≠ 4 := by omega
    refine ⟨k, ns, .nothing hother (Event.added_of_ne (by omega)) (Event.not_answers_of_ne (by omega)),
      fun size _ => hresult (-1) ?_⟩
    unfold mp1Ioctl
    rw [hcmd]
    rfl

/-- Every event has its effect; only a turn that empties the list ends in a fault. -/
theorem next_does (hl : k.Linked ns) (hpossible : k.Possible e) :
    (∃ k' ns', k.Does ns e k' ns' ∧ ∀ size, ns.length ≤ size → k.next size e = .ok k') ∨
      (e = .pass ∧ LastLeaves ns k.game) ∧ ∀ size, ns.length ≤ size → k.next size e = .error .null := by
  cases e with
  | ioctl arg cmd h => exact Or.inl (ioctl_does hl hpossible)
  | tick =>
    refine Or.inl ?_
    have hchain := hl.chain
    rcases ns with - | ⟨p, rest⟩
    · refine ⟨_, _, .idle rfl, fun size _ => ?_⟩
      simp only [Kernel.next, mp1RtcTasklet]
      rw [if_pos hchain.eq_null]
    · refine ⟨_, _, .begin rfl, fun size _ => ?_⟩
      have hlist : k.game.list ≠ 0 := by
        rw [hchain.head_eq]
        exact hchain.ne_null
      simp only [Kernel.next, mp1RtcTasklet]
      rw [if_neg hlist, hchain.head_eq]
  | pass =>
    rcases hcursor : k.cursor with - | ⟨cur, prev⟩
    · exact absurd hcursor hpossible
    have hnext : ∀ size, k.next size .pass = turn size cur prev k := fun size => by
      simp only [Kernel.next, hcursor]
    rcases turn_does hl hcursor with ⟨k', ns', hdoes, hrun⟩ | ⟨hlast, hrun⟩
    · exact Or.inl ⟨k', ns', hdoes, fun size hsize => (hnext size).trans (hrun size hsize)⟩
    · exact Or.inr ⟨⟨rfl, hlast⟩, fun size hsize => (hnext size).trans (hrun size hsize)⟩

theorem Outcome.unique {r r' : Except Fault Kernel} (h : k.Outcome e r) (h' : k.Outcome e r') : r = r' := by
  obtain ⟨-, n, hn⟩ := h
  obtain ⟨-, n', hn'⟩ := h'
  rw [← hn (max n n') (Nat.le_max_left _ _), hn' (max n n') (Nat.le_max_right _ _)]

theorem step_does (hl : k.Linked ns) (hstep : k.Step e k') : ∃ ns', k.Does ns e k' ns' := by
  rcases next_does hl hstep.1 with ⟨u, ns', hdoes, hrun⟩ | ⟨-, hrun⟩
  · have hsame := Outcome.unique hstep ⟨hstep.1, _, hrun⟩
    cases hsame
    exact ⟨ns', hdoes⟩
  · have hsame := Outcome.unique hstep ⟨hstep.1, _, hrun⟩
    cases hsame

/-- The only fault is the load through `NULL` after the last missile has left the list. -/
theorem outcome_error (hl : k.Linked ns) {f : Fault} (h : k.Outcome e (.error f)) :
    f = .null ∧ e = .pass ∧ LastLeaves ns k.game := by
  rcases next_does hl h.1 with ⟨u, ns', -, hrun⟩ | ⟨⟨he, hlast⟩, hrun⟩
  · have hsame := Outcome.unique h ⟨h.1, _, hrun⟩
    cases hsame
  · have hsame := Outcome.unique h ⟨h.1, _, hrun⟩
    cases hsame
    exact ⟨rfl, he, hlast⟩

/-! ### The list in a run -/

theorem Turned.mem_iff {pre post before rest : List Nat} {cur a : Nat} {m : Missile} {g : Game}
    (ht : Turned k pre cur post m g before a rest) (p : Nat) :
    p ∈ before ++ a :: rest ↔ p ∈ pre ++ cur :: post ∧ (p = cur → ¬m.Doomed) := by
  by_cases hdoomed : m.Doomed
  · obtain ⟨rfl, hlist⟩ := ht.remove hdoomed
    rw [List.nil_append, hlist, List.mem_append, List.mem_append, List.mem_cons]
    constructor
    · intro hp
      have hne : p ≠ cur := by
        rintro rfl
        exact ht.at_cur.notMem (List.mem_append.2 hp)
      exact ⟨hp.imp_right Or.inr, fun hpc => absurd hpc hne⟩
    · rintro ⟨hpre | rfl | hpost, hkeep⟩
      · exact Or.inl hpre
      · exact absurd hdoomed (hkeep rfl)
      · exact Or.inr hpost
  · obtain ⟨rfl, rfl, rfl⟩ := ht.keep hdoomed
    exact ⟨fun hp => ⟨hp, fun _ => hdoomed⟩, fun hp => hp.1⟩

theorem Kernel.Linked.out (hl : k.Linked ns) {p : Nat} (hp : k.game.missile p = none) : p ∉ ns := by
  intro hmem
  obtain ⟨-, r, hr⟩ := hl.chain.allocated p hmem
  obtain ⟨i, hi, -⟩ := Game.missile_of_next hr
  rw [hp] at hi
  cases hi

theorem Kernel.not_allocated {p : Nat} (h : ¬k.Allocated p) : k.game.missile p = none ∧ k.word p = none :=
  ⟨Option.not_isSome_iff_eq_none.1 fun hs => h (Or.inl hs), Option.not_isSome_iff_eq_none.1 fun hs => h (Or.inr hs)⟩

theorem does_linked (hl : k.Linked ns) (h : k.Does ns e k' ns') : k'.Linked ns' := by
  cases h with
  | startgame => exact ⟨hl.chain, hl.cursor, hl.apart⟩
  | movexhairs => exact ⟨hl.chain, hl.cursor, hl.apart⟩
  | @addmissile _ _ h m _ _ hp hfree hcursor =>
    obtain ⟨hmissile, hword⟩ := k.not_allocated hfree
    have hnext : (k.added h.block m).game.next = Function.update k.game.next h.block (some k.game.list) :=
      Game.next_store k.game h.block { m with next := k.game.list }
    refine ⟨?_, fun cur prev hc => absurd (hcursor.symm.trans hc) nofun, fun q hq => ?_⟩
    · rw [hnext]
      exact .cons hp (Function.update_self _ _ _) (hl.chain.update_other (hl.out hmissile))
    · rcases List.mem_cons.1 hq with rfl | hq
      · exact hword
      · exact hl.apart q hq
  | @getstatus _ _ h hanswers hfree =>
    refine ⟨hl.chain, hl.cursor, fun q hq => ?_⟩
    have hne : q ≠ h.block := ne_of_mem_of_not_mem hq (hl.out (k.not_allocated hfree).1)
    exact (Function.update_of_ne hne _ _).trans (hl.apart q hq)
  | endgame hcmd hcursor => exact ⟨.nil, fun cur prev hc => absurd (hcursor.symm.trans hc) nofun, nofun⟩
  | nothing => exact hl
  | idle hns =>
    obtain ⟨v, hv⟩ := redrawCitiesCrosshairs_eq k
    rw [hv]
    exact ⟨hl.chain, hl.cursor, hl.apart⟩
  | @begin p rest hns =>
    refine ⟨hl.chain, fun cur prev hc => ?_, hl.apart⟩
    cases hc
    exact ⟨[], rest, hns, rfl⟩
  | last hcursor hns ht =>
    obtain ⟨v, hv⟩ := redrawCitiesCrosshairs_eq { k with game := _, cursor := none }
    rw [Kernel.lastPass, hv]
    refine ⟨ht.chain, nofun, fun q hq => hl.apart q ?_⟩
    rw [hns]
    exact ((ht.mem_iff q).1 hq).1
  | @on pre post before rest cur a c m g hcursor hns ht =>
    refine ⟨ht.chain, fun cur' prev hc => ?_, fun q hq => hl.apart q ?_⟩
    · cases hc
      refine ⟨before ++ [a], rest, ?_, List.getLastD_concat.symm⟩
      rw [List.append_assoc]
      rfl
    · rw [hns]
      exact ((ht.mem_iff q).1 hq).1

theorem boot_linked (video : Nat → UInt8) : (Kernel.boot video).Linked [] := ⟨.nil, nofun, nofun⟩

theorem run_linked {es : List Event} (hrun : Run Kernel.Step k es k') (hl : k.Linked ns) :
    ∃ ns', k'.Linked ns' := by
  refine hrun.invariant (I := fun k => ∃ ns, k.Linked ns) ?_ ⟨ns, hl⟩
  rintro s e t ⟨ns, hs⟩ hstep
  obtain ⟨ns', hdoes⟩ := step_does hs hstep
  exact ⟨ns', does_linked hs hdoes⟩

theorem Turned.list_eq {pre post before rest : List Nat} {cur a : Nat} {m : Missile} {g : Game}
    (ht : Turned k pre cur post m g before a rest) :
    before ++ a :: rest = if m.Doomed then pre ++ post else pre ++ cur :: post := by
  split
  · rename_i hdoomed
    obtain ⟨rfl, hlist⟩ := ht.remove hdoomed
    exact hlist
  · rename_i hkeep
    obtain ⟨rfl, rfl, rfl⟩ := ht.keep hkeep
    rfl

theorem Kernel.Linked.missile (hl : k.Linked ns) {p : Nat} (hp : p ∈ ns) : ∃ i, k.game.missile p = some i := by
  obtain ⟨-, r, hr⟩ := hl.chain.allocated p hp
  obtain ⟨i, hi, -⟩ := Game.missile_of_next hr
  exact ⟨i, hi⟩

/-- The missiles after a pass: the one that was treated, and the others as the explosion left them. -/
theorem Turned.what {pre post before rest : List Nat} {cur a : Nat} {m : Missile} {g : Game}
    (ht : Turned k pre cur post m g before a rest) (hl : k.Linked (pre ++ cur :: post)) {q : Nat}
    (hq : q ∈ before ++ a :: rest) :
    q ∈ pre ++ cur :: post ∧ ((q = cur ∧ ¬m.Doomed ∧ g.missile q = some m.after) ∨
      (q ≠ cur ∧ ∃ i n, k.game.missile q = some i ∧ g.missile q = some { i with
        exploded := if q ∈ k.game.hits cur m (pre ++ cur :: post) then explosionTime else i.exploded
        next := n })) := by
  obtain ⟨hmem, hkeep⟩ := (ht.mem_iff q).1 hq
  refine ⟨hmem, ?_⟩
  by_cases hcur : q = cur
  · refine Or.inl ⟨hcur, hkeep hcur, ?_⟩
    rw [hcur]
    exact ht.visited.stays (hkeep hcur)
  · obtain ⟨i, hi⟩ := hl.missile hmem
    obtain ⟨n, hn⟩ := ht.visited.hitting.some q i hcur hi
    exact Or.inr ⟨hcur, i, n, hi, hn⟩

theorem Turned.length_le {pre post before rest : List Nat} {cur a : Nat} {m : Missile} {g : Game}
    (ht : Turned k pre cur post m g before a rest) :
    (before ++ a :: rest).length ≤ (pre ++ cur :: post).length := by
  rw [ht.list_eq]
  split
  · rw [List.length_append, List.length_append, List.length_cons]
    omega
  · exact Nat.le_refl _

theorem Does.length_le (h : k.Does ns e k' ns') : ns'.length ≤ ns.length + 1 := by
  cases h with
  | addmissile => exact Nat.le_refl _
  | endgame => exact Nat.zero_le _
  | last _ hns ht =>
    rw [hns]
    exact Nat.le_succ_of_le ht.length_le
  | on _ hns ht =>
    rw [hns]
    exact Nat.le_succ_of_le ht.length_le
  | _ => exact Nat.le_succ _

/-- What has been played is a run, if the walks were long enough for all missiles that may have come. -/
theorem play_run {size : Nat} {es : List Event} (hl : k.Linked ns) (hsize : ns.length + es.length ≤ size)
    (h : Kernel.play size es k = .ok k') : Run Kernel.Step k es k' := by
  induction es generalizing k ns with
  | nil =>
    cases h
    exact .nil _
  | cons e es ih =>
    rw [Kernel.play] at h
    rw [List.length_cons] at hsize
    split at h
    · rename_i hpossible
      obtain ⟨u, hnext, hrest⟩ := bind_eq_ok.1 h
      rcases next_does hl hpossible with ⟨t, ns', hdoes, hrun⟩ | ⟨-, hrun⟩
      · rw [hrun size (by omega)] at hnext
        cases hnext
        have hlen := Does.length_le hdoes
        exact .cons ⟨hpossible, _, hrun⟩ (ih (does_linked hl hdoes) (by omega) hrest)
      · rw [hrun size (by omega)] at hnext
        cases hnext
    · cases h

theorem play_exists {α : Type} {f : Kernel → α} {c : α} {size : Nat} {es : List Event} (hl : k.Linked ns)
    (hsize : ns.length + es.length ≤ size) (h : (Kernel.play size es k).toOption.map f = some c) :
    ∃ k', Run Kernel.Step k es k' ∧ f k' = c := by
  obtain ⟨u, hu, hf⟩ := Option.map_eq_some_iff.1 h
  exact ⟨u, play_run hl hsize (toOption_eq_some.1 hu), hf⟩

def addEvent (p : Nat) (m : Missile) : Event := .ioctl 0 1 ⟨p, m, some m, false, 0⟩

/-! ### The tick as a whole -/

theorem turn_step {size cur prev : Nat} (hl : k.Linked ns) (hsize : ns.length ≤ size)
    (hcursor : k.cursor = some (cur, prev)) (h : turn size cur prev k = .ok k') : k.Step .pass k' := by
  have hnext : ∀ n, k.next n .pass = turn n cur prev k := fun n => by simp only [Kernel.next, hcursor]
  have hpossible : k.Possible .pass := by
    rw [Kernel.Possible, hcursor]
    exact nofun
  rcases turn_does hl hcursor with ⟨u, -, -, hrun⟩ | ⟨-, hrun⟩
  · rw [hrun size hsize] at h
    cases h
    exact ⟨hpossible, ns.length, fun n hn => (hnext n).trans (hrun n hn)⟩
  · rw [hrun size hsize] at h
    cases h

theorem Does.pass_length_le (h : k.Does ns .pass k' ns') : ns'.length ≤ ns.length := by
  cases h with
  | last _ hns ht =>
    rw [hns]
    exact ht.length_le
  | on _ hns ht =>
    rw [hns]
    exact ht.length_le

theorem Does.tick_same (h : k.Does ns .tick k' ns') : ns' = ns := by
  cases h <;> rfl

theorem updateLoop_run {size fuel cur prev : Nat} {r : List Act × Bool × Game} (hl : k.Linked ns)
    (hsize : ns.length ≤ size) (hcursor : k.cursor = some (cur, prev))
    (h : updateLoop size fuel cur prev k.game = .ok r) :
    ∃ n, Run Kernel.Step k (List.replicate n .pass) (k.lastPass r.2.2) := by
  induction fuel generalizing k ns cur prev r with
  | zero => cases h
  | succ fuel ih =>
    obtain ⟨pass, hpass, h⟩ := bind_eq_ok.1 h
    obtain ⟨a, ha⟩ : ∃ a, a = if pass.removed then pass.game.list else cur := ⟨_, rfl⟩
    simp only [← ha] at h
    obtain ⟨m, hm, h⟩ := bind_eq_ok.1 h
    have hturn : turn size cur prev k =
        if m.next = 0 then .ok (k.lastPass pass.game) else .ok (k.otherPass pass.game m.next a) := by
      unfold turn
      rw [hpass, ok_bind]
      simp only [← ha]
      rw [hm, ok_bind]
      rfl
    by_cases hend : m.next = 0
    · rw [if_pos hend] at h hturn
      cases h
      exact ⟨1, .single (turn_step hl hsize hcursor hturn)⟩
    · rw [if_neg hend] at h hturn
      obtain ⟨r', hloop, h⟩ := bind_eq_ok.1 h
      cases h
      have hstep := turn_step hl hsize hcursor hturn
      obtain ⟨ns', hdoes⟩ := step_does hl hstep
      have hlen := Nat.le_trans (Does.pass_length_le hdoes) hsize
      obtain ⟨n, hrun⟩ := ih (does_linked hl hdoes) hlen rfl hloop
      exact ⟨n + 1, .cons hstep hrun⟩

/-- `mp1_rtc_tasklet` as one call is a tick with its passes. -/
theorem tasklet_run {size fuel : Nat} {r : List Act × Bool × Game} (hl : k.Linked ns) (hsize : ns.length ≤ size)
    (hcursor : k.cursor = none) (h : updateMissiles size fuel k.game = .ok r) :
    ∃ n, Run Kernel.Step k (.tick :: List.replicate n .pass)
      (redrawCitiesCrosshairs { k with game := r.2.2 }) := by
  unfold updateMissiles at h
  by_cases hlist : k.game.list = 0
  · rw [if_pos hlist] at h
    cases h
    refine ⟨0, .single ⟨hcursor, 0, fun _ _ => ?_⟩⟩
    simp only [Kernel.next, mp1RtcTasklet]
    rw [if_pos hlist]
  · rw [if_neg hlist] at h
    obtain ⟨u, hu⟩ : ∃ u : Kernel, u = { k with cursor := some (k.game.list, 0) } := ⟨_, rfl⟩
    have hstep : k.Step .tick u := by
      refine ⟨hcursor, 0, fun _ _ => ?_⟩
      simp only [Kernel.next, mp1RtcTasklet]
      rw [if_neg hlist, hu]
    obtain ⟨ns', hdoes⟩ := step_does hl hstep
    obtain rfl := Does.tick_same hdoes
    rw [hu] at hdoes hstep
    obtain ⟨n, hrun⟩ := updateLoop_run (does_linked hl hdoes) hsize rfl h
    have hend : ({ k with cursor := some (k.game.list, 0) } : Kernel).lastPass r.2.2 =
        redrawCitiesCrosshairs { k with game := r.2.2 } := by
      rw [Kernel.lastPass, ← hcursor]
    rw [hend] at hrun
    exact ⟨n, .cons hstep hrun⟩

end Does

end Ece391.Mp1
