import Ece391.Mp1.Driver
import Mathlib.Data.List.Count
import Mathlib.Data.List.Nodup

/-!
# Points

The driver with a history: with which character every missile was added, and which missile was hit by
which. An enemy is worth one point, whatever becomes of it and of the block it was in.
-/

namespace Ece391.Mp1

/-! ### Occurrences -/

theorem range_map_getElem? {α : Type} (l : List α) : (List.range l.length).map (l[·]?) = l.map some := by
  refine List.ext_getElem (by rw [List.length_map, List.length_range, List.length_map]) fun i hi _ => ?_
  rw [List.length_map, List.length_range] at hi
  rw [List.getElem_map, List.getElem_range, List.getElem_map, List.getElem?_eq_getElem hi]

/-- Different places of a list that hold `a` are no more than the occurrences of `a`. -/
theorem length_le_count {α : Type} [DecidableEq α] {l : List α} {a : α} {is : List Nat} (hnodup : is.Nodup)
    (h : ∀ i ∈ is, l[i]? = some a) : is.length ≤ l.count a := by
  have hsub : is ⊆ (List.range l.length).filter fun i => l[i]? = some a := fun i hi => by
    rw [List.mem_filter, List.mem_range, decide_eq_true_eq]
    exact ⟨(List.getElem?_eq_some_iff.1 (h i hi)).1, h i hi⟩
  calc is.length ≤ ((List.range l.length).filter fun i => l[i]? = some a).length :=
        (List.subperm_of_subset hnodup hsub).length_le
    _ = ((List.range l.length).map (l[·]?)).countP (fun b => decide (b = some a)) := by
        rw [List.countP_map, List.countP_eq_length_filter]
        rfl
    _ = l.count a := by
        rw [range_map_getElem?, List.countP_map, List.count]
        exact List.countP_congr fun b _ => by simp

/-! ### The history -/

def InRange (m i : Missile) : Prop :=
  -2 ≤ gridCoord m.x - gridCoord i.x ∧ gridCoord m.x - gridCoord i.x ≤ 2 ∧
    -1 ≤ gridCoord m.y - gridCoord i.y ∧ gridCoord m.y - gridCoord i.y ≤ 1

instance (m i : Missile) : Decidable (InRange m i) := inferInstanceAs (Decidable (_ ∧ _))

theorem hits_iff {m i : Missile} : Hits m i ↔ InRange m i ∧ i.exploded = 0 ∧ i.c = enemy ∧ m.c = player := by
  unfold Hits InRange
  simp only [and_assoc]

/-- The missile with the number `victim` was hit while `bomb` was treated; `target` is how it was then. -/
structure Point where
  victim : Nat
  bomb : Option Missile
  target : Option Missile

/-- The driver, the characters of all missiles that were added, the number of the latest missile at each
address, the missiles of the list, and the points. -/
structure Watched where
  kernel : Kernel
  added : List UInt8
  serial : Nat → Nat
  nodes : List Nat
  points : List Point

namespace Watched

variable (w : Watched)

/-- The missiles of the list other than the one at `cur` of which an explosion has started. -/
def struck (cur : Nat) (g : Game) : List Nat :=
  w.nodes.filter fun q => decide (q ≠ cur) &&
    ((w.kernel.game.missile q).any (fun i => i.exploded = 0) && (g.missile q).any fun i => i.exploded ≠ 0)

/-- The history after an event that the driver left as `k`. -/
def after (e : Event) (k : Kernel) : Watched :=
  match e with
  | .ioctl arg cmd h =>
    if cmd.toNat = 4 then { w with kernel := k, nodes := [] }
    else
      match (Event.ioctl arg cmd h).added with
      | some (p, m) => { w with
          kernel := k
          added := w.added ++ [m.c]
          serial := Function.update w.serial p w.added.length
          nodes := p :: w.nodes }
      | none => { w with kernel := k }
  | .tick => { w with kernel := k }
  | .pass =>
    match w.kernel.cursor with
    | none => { w with kernel := k }
    | some (cur, _) => { w with
        kernel := k
        nodes := if (k.game.missile cur).isSome then w.nodes else w.nodes.erase cur
        points := w.points ++ (w.struck cur k.game).map fun q =>
          ⟨w.serial q, w.kernel.game.missile cur, w.kernel.game.missile q⟩ }

def Step (w : Watched) (e : Event) (w' : Watched) : Prop :=
  w.kernel.Step e w'.kernel ∧ w' = w.after e w'.kernel

def play (size : Nat) : List Event → Watched → Except Fault Watched
  | [], w => .ok w
  | e :: es, w => do
    let k ← Kernel.play size [e] w.kernel
    play size es (w.after e k)

def boot (video : Nat → UInt8) : Watched := ⟨.boot video, [], fun _ => 0, [], []⟩

/-- The history tells the truth about the list. -/
structure Sound : Prop where
  linked : w.kernel.Linked w.nodes
  apart : ∀ q ∈ w.nodes, ∀ r ∈ w.nodes, w.serial q = w.serial r → q = r
  born : ∀ q ∈ w.nodes, ∀ i, w.kernel.game.missile q = some i → ∃ c, w.added[w.serial q]? = some c ∧
    (i.c = c ∨ i.c = explosion) ∧ (i.exploded = 0 → i.c = c)

/-- No missile is worth a second point; those that were hit are exploding for the rest of their lives. -/
structure Fair : Prop where
  score : w.kernel.game.score = w.points.length
  once : (w.points.map Point.victim).Nodup
  point : ∀ pt ∈ w.points, w.added[pt.victim]? = some enemy ∧ ∃ m i, pt.bomb = some m ∧ pt.target = some i ∧
    m.c = player ∧ m.Explodes ∧ InRange m.bomb i
  spent : ∀ pt ∈ w.points, ∀ q ∈ w.nodes, w.serial q = pt.victim →
    ∀ i, w.kernel.game.missile q = some i → i.exploded ≠ 0

end Watched

section Watched

variable {w w' : Watched} {k k' : Kernel} {ns ns' pre post before rest : List Nat} {cur a : Nat} {m : Missile}
  {g : Game} {e : Event} {es : List Event} {video : Nat → UInt8}

/-! ### A pass -/

theorem Missile.bomb_c (m : Missile) : m.bomb.c = m.c := by
  unfold Missile.bomb
  split <;> rfl

theorem Missile.after_exploded (h : ¬m.Doomed) (hx : m.Explodes) : m.after.c = explosion ∧ m.after.exploded ≠ 0 := by
  rw [Missile.after, if_pos hx]
  refine ⟨rfl, fun hzero => h (Or.inr ⟨hx, ?_⟩)⟩
  have htimer : m.timer = 0 := hzero
  rw [htimer]
  decide

theorem Missile.after_flying (hx : ¬m.Explodes) : m.after.c = m.c ∧ m.after.exploded = m.exploded := by
  rw [Missile.after, if_neg hx]
  exact ⟨rfl, rfl⟩

theorem mem_hits {q : Nat} : q ∈ g.hits cur m ns ↔
    m.Explodes ∧ q ∈ ns ∧ q ≠ cur ∧ ∃ i, g.missile q = some i ∧ Hits m.bomb i := by
  unfold Game.hits
  split
  · rename_i hx
    rw [Game.mem_victims, and_iff_right hx]
  · rename_i hx
    simp only [List.not_mem_nil, hx, false_and]

theorem struck_eq (hnodes : w.nodes = pre ++ cur :: post)
    (hv : Visited w.kernel.game cur (pre ++ cur :: post) m g) :
    w.struck cur g = w.kernel.game.hits cur m (pre ++ cur :: post) := by
  obtain ⟨vs, hvs⟩ : ∃ vs, vs = w.kernel.game.hits cur m (pre ++ cur :: post) := ⟨_, rfl⟩
  have hmem : ∀ q, q ∈ vs ↔ m.Explodes ∧ q ∈ pre ++ cur :: post ∧ q ≠ cur ∧
      ∃ i, w.kernel.game.missile q = some i ∧ Hits m.bomb i := fun q => by
    rw [hvs]
    exact mem_hits
  have hfilter : vs = (pre ++ cur :: post).filter fun q => q ∈ vs := by
    by_cases hx : m.Explodes
    · refine hvs.trans ?_
      rw [Game.hits, if_pos hx]
      refine List.filter_congr fun q hq => Bool.eq_iff_iff.2 ?_
      rw [decide_eq_true_eq, hmem q, and_iff_right hx, and_iff_right hq, Bool.and_eq_true, decide_eq_true_eq,
        Option.any_eq_true]
      simp only [decide_eq_true_eq]
    · have hnil : vs = [] := by rw [hvs, Game.hits, if_neg hx]
      rw [hnil]
      simp only [List.not_mem_nil, decide_false, List.filter_false]
  rw [← hvs, hfilter, Watched.struck, hnodes]
  refine List.filter_congr fun q hq => Bool.eq_iff_iff.2 ?_
  rw [decide_eq_true_eq, Bool.and_eq_true, Bool.and_eq_true, decide_eq_true_eq, Option.any_eq_true,
    Option.any_eq_true]
  simp only [decide_eq_true_eq]
  have hhit := hv.hitting
  rw [← hvs] at hhit
  constructor
  · rintro ⟨hne, ⟨i, hi, hzero⟩, i', hi', hlit⟩
    obtain ⟨n, hn⟩ := hhit.some q i hne hi
    rw [hn] at hi'
    cases hi'
    by_contra hout
    dsimp only at hlit
    rw [if_neg hout] at hlit
    exact hlit hzero
  · intro hin
    obtain ⟨-, -, hne, i, hi, hhits⟩ := (hmem q).1 hin
    obtain ⟨n, hn⟩ := hhit.some q i hne hi
    have htime : explosionTime ≠ 0 := by decide
    refine ⟨hne, ⟨i, hi, hhits.2.2.2.2.1⟩, _, hn, ?_⟩
    dsimp only
    rw [if_pos hin]
    exact htime

/-! ### Events -/

theorem after_aside {arg cmd : BitVec 32} {h : Helpers} (hcmd : cmd.toNat ≠ 4)
    (hadded : (Event.ioctl arg cmd h).added = none) :
    w.after (.ioctl arg cmd h) k = { w with kernel := k } := by
  simp only [Watched.after]
  rw [if_neg hcmd, hadded]

theorem Watched.Sound.screen (hs : w.Sound) (hl : k.Linked w.nodes)
    (hmissile : k.game.missile = w.kernel.game.missile) : Sound { w with kernel := k } where
  linked := hl
  apart := hs.apart
  born := fun q hq i hi => hs.born q hq i (by rw [← hmissile]; exact hi)

theorem Watched.Fair.screen (hf : w.Fair) (hmissile : k.game.missile = w.kernel.game.missile)
    (hscore : k.game.score = w.kernel.game.score) : Fair { w with kernel := k } where
  score := hscore.trans hf.score
  once := hf.once
  point := hf.point
  spent := fun pt hpt q hq hserial i hi => hf.spent pt hpt q hq hserial i (by rw [← hmissile]; exact hi)

theorem Watched.Sound.serial_lt (hs : w.Sound) {q : Nat} (hq : q ∈ w.nodes) : w.serial q < w.added.length := by
  obtain ⟨i, hi⟩ := hs.linked.missile hq
  obtain ⟨c, hc, -⟩ := hs.born q hq i hi
  exact (List.getElem?_eq_some_iff.1 hc).1

theorem getElem?_concat_of_some {l : List UInt8} {n : Nat} {b c : UInt8} (h : l[n]? = some c) :
    (l ++ [b])[n]? = some c := by
  rw [List.getElem?_append_left (List.getElem?_eq_some_iff.1 h).1, h]

theorem keeps_added (hs : w.Sound) (hf : w.Fair) {p : Nat} (hfree : ¬w.kernel.Allocated p)
    (hl : (w.kernel.added p m).Linked (p :: w.nodes)) :
    Watched.Sound { w with
        kernel := w.kernel.added p m
        added := w.added ++ [m.c]
        serial := Function.update w.serial p w.added.length
        nodes := p :: w.nodes } ∧
      Watched.Fair { w with
        kernel := w.kernel.added p m
        added := w.added ++ [m.c]
        serial := Function.update w.serial p w.added.length
        nodes := p :: w.nodes } := by
  have hout : p ∉ w.nodes := hs.linked.out (w.kernel.not_allocated hfree).1
  have hold : ∀ q ∈ w.nodes, Function.update w.serial p w.added.length q = w.serial q := fun q hq =>
    Function.update_of_ne (ne_of_mem_of_not_mem hq hout) _ _
  have hnew : Function.update w.serial p w.added.length p = w.added.length := Function.update_self _ _ _
  have hmissile : ∀ q ∈ w.nodes, (w.kernel.added p m).game.missile q = w.kernel.game.missile q := fun q hq =>
    Function.update_of_ne (ne_of_mem_of_not_mem hq hout) _ _
  have hvictim : ∀ pt ∈ w.points, pt.victim < w.added.length := fun pt hpt =>
    (List.getElem?_eq_some_iff.1 (hf.point pt hpt).1).1
  refine ⟨⟨hl, fun q hq r hr hsame => ?_, fun q hq i hi => ?_⟩, ⟨hf.score, hf.once, fun pt hpt => ?_,
    fun pt hpt q hq hserial i hi => ?_⟩⟩
  · dsimp only at hq hr hsame
    rcases List.mem_cons.1 hq with rfl | hq' <;> rcases List.mem_cons.1 hr with rfl | hr'
    · rfl
    · rw [hnew, hold r hr'] at hsame
      exact absurd hsame (Nat.ne_of_gt (hs.serial_lt hr'))
    · rw [hnew, hold q hq'] at hsame
      exact absurd hsame (Nat.ne_of_lt (hs.serial_lt hq'))
    · rw [hold q hq', hold r hr'] at hsame
      exact hs.apart q hq' r hr' hsame
  · dsimp only at hq hi ⊢
    rcases List.mem_cons.1 hq with rfl | hq
    · have hi' : i = { m with next := w.kernel.game.list } :=
        Option.some.inj (hi.symm.trans (w.kernel.game.store_self q _))
      rw [hnew, hi']
      refine ⟨m.c, ?_, Or.inl rfl, fun _ => rfl⟩
      rw [List.getElem?_concat_length]
    · rw [hmissile q hq] at hi
      obtain ⟨c, hc, hmore⟩ := hs.born q hq i hi
      rw [hold q hq]
      exact ⟨c, getElem?_concat_of_some hc, hmore⟩
  · obtain ⟨henemy, hmore⟩ := hf.point pt hpt
    exact ⟨getElem?_concat_of_some henemy, hmore⟩
  · dsimp only at hpt hq hserial hi
    rcases List.mem_cons.1 hq with rfl | hq
    · rw [hnew] at hserial
      exact absurd hserial (Nat.ne_of_gt (hvictim pt hpt))
    · rw [hold q hq] at hserial
      rw [hmissile q hq] at hi
      exact hf.spent pt hpt q hq hserial i hi

theorem sound_pass (hs : w.Sound) (hnodes : w.nodes = pre ++ cur :: post)
    (ht : Turned w.kernel pre cur post m g before a rest) (hl : k.Linked (before ++ a :: rest))
    (hmissile : k.game.missile = g.missile) (points : List Point) :
    Watched.Sound { w with kernel := k, nodes := before ++ a :: rest, points := points } := by
  have hlinked := hs.linked
  rw [hnodes] at hlinked
  refine ⟨hl, fun q hq r hr hsame => ?_, fun q hq i hi => ?_⟩
  · have hqold := (ht.what hlinked hq).1
    have hrold := (ht.what hlinked hr).1
    rw [← hnodes] at hqold hrold
    exact hs.apart q hqold r hrold hsame
  · dsimp only at hq hi ⊢
    obtain ⟨hmem, hwhat⟩ := ht.what hlinked hq
    rw [← hnodes] at hmem
    rw [hmissile] at hi
    rcases hwhat with ⟨rfl, hkeep, hafter⟩ | ⟨-, j, n, hj, hafter⟩
    · rw [hafter] at hi
      cases hi
      obtain ⟨c, hc, hor, hflying⟩ := hs.born q hmem m ht.missile
      refine ⟨c, hc, ?_⟩
      by_cases hx : m.Explodes
      · obtain ⟨hat, htimer⟩ := Missile.after_exploded hkeep hx
        exact ⟨Or.inr hat, fun hzero => absurd hzero htimer⟩
      · obtain ⟨hsame, hexploded⟩ := Missile.after_flying hx
        rw [hsame, hexploded]
        exact ⟨hor, hflying⟩
    · rw [hafter] at hi
      cases hi
      obtain ⟨c, hc, hor, hflying⟩ := hs.born q hmem j hj
      refine ⟨c, hc, hor, fun hzero => hflying ?_⟩
      dsimp only at hzero
      split at hzero
      · exact absurd hzero (by decide)
      · exact hzero

theorem fair_pass (hs : w.Sound) (hf : w.Fair) (hnodes : w.nodes = pre ++ cur :: post)
    (ht : Turned w.kernel pre cur post m g before a rest) (hmissile : k.game.missile = g.missile)
    (hscore : k.game.score = g.score) :
    Watched.Fair { w with
      kernel := k
      nodes := before ++ a :: rest
      points := w.points ++ (w.kernel.game.hits cur m w.nodes).map fun q =>
        ⟨w.serial q, w.kernel.game.missile cur, w.kernel.game.missile q⟩ } := by
  have hlinked := hs.linked
  rw [hnodes] at hlinked
  have hhit := ht.visited.hitting
  rw [← hnodes] at hhit
  obtain ⟨vs, hvs⟩ : ∃ vs, vs = w.kernel.game.hits cur m w.nodes := ⟨_, rfl⟩
  have hmem : ∀ q ∈ vs, m.Explodes ∧ q ∈ w.nodes ∧ q ≠ cur ∧
      ∃ i, w.kernel.game.missile q = some i ∧ Hits m.bomb i := fun q hq => by
    rw [hvs] at hq
    exact mem_hits.1 hq
  have hnodup : vs.Nodup := by
    have hall := hs.linked.chain.nodup
    rw [hvs, Game.hits]
    split
    · exact hall.filter _
    · exact List.nodup_nil
  rw [← hvs] at hhit ⊢
  constructor
  case score =>
    dsimp only
    rw [hscore, hhit.score, hf.score, List.length_append, List.length_map, Nat.cast_add]
  case once =>
    dsimp only
    rw [List.map_append, List.map_map]
    refine List.Nodup.append hf.once ?_ ?_
    · exact hnodup.map_on fun q hq r hr hsame => hs.apart q (hmem q hq).2.1 r (hmem r hr).2.1 hsame
    · intro n hold hnew
      obtain ⟨pt, hpt, rfl⟩ := List.mem_map.1 hold
      obtain ⟨q, hq, hserial⟩ := List.mem_map.1 hnew
      obtain ⟨-, hin, -, i, hi, hhits⟩ := hmem q hq
      exact hf.spent pt hpt q hin hserial i hi hhits.2.2.2.2.1
  case point =>
    intro pt hpt
    rcases List.mem_append.1 hpt with hold | hnew
    · exact hf.point pt hold
    · obtain ⟨q, hq, rfl⟩ := List.mem_map.1 hnew
      obtain ⟨hx, hin, -, i, hi, hhits⟩ := hmem q hq
      obtain ⟨hrange, hzero, henemy, hplayer⟩ := hits_iff.1 hhits
      obtain ⟨c, hc, -, hflying⟩ := hs.born q hin i hi
      rw [← hflying hzero, henemy] at hc
      rw [Missile.bomb_c] at hplayer
      exact ⟨hc, m, i, ht.missile, hi, hplayer, hx, hrange⟩
  case spent =>
    intro pt hpt q hq hserial i hi
    dsimp only at hpt hq hserial hi
    obtain ⟨hin, hwhat⟩ := ht.what hlinked hq
    rw [← hnodes] at hin
    rw [hmissile] at hi
    rw [← hnodes, ← hvs] at hwhat
    -- a missile that was hit before is exploding already
    have hspent : q ∉ vs → ∀ j, w.kernel.game.missile q = some j → j.exploded ≠ 0 := by
      intro hout j hj
      rcases List.mem_append.1 hpt with hold | hnew
      · exact hf.spent pt hold q hin hserial j hj
      · obtain ⟨r, hr, rfl⟩ := List.mem_map.1 hnew
        rw [hs.apart q hin r (hmem r hr).2.1 hserial] at hout
        exact absurd hr hout
    rcases hwhat with ⟨rfl, hkeep, hafter⟩ | ⟨-, j, n, hj, hafter⟩
    · rw [hafter] at hi
      cases hi
      have hx : m.Explodes := Or.inl (hspent (fun hq => (hmem q hq).2.2.1 rfl) m ht.missile)
      exact (Missile.after_exploded hkeep hx).2
    · rw [hafter] at hi
      cases hi
      dsimp only
      split
      · decide
      · rename_i hout
        exact hspent hout j hj

theorem after_pass (hnodes : w.nodes = pre ++ cur :: post)
    (hcursor : w.kernel.cursor = some (cur, pre.getLastD 0))
    (ht : Turned w.kernel pre cur post m g before a rest) (hmissile : k.game.missile = g.missile) :
    w.after .pass k = { w with
      kernel := k
      nodes := before ++ a :: rest
      points := w.points ++ (w.kernel.game.hits cur m w.nodes).map fun q =>
        ⟨w.serial q, w.kernel.game.missile cur, w.kernel.game.missile q⟩ } := by
  have hstruck : w.struck cur k.game = w.kernel.game.hits cur m w.nodes := by
    have hsame : w.struck cur k.game = w.struck cur g := by
      unfold Watched.struck
      rw [hmissile]
    rw [hsame, struck_eq hnodes ht.visited, ← hnodes]
  have hlist : (if (k.game.missile cur).isSome then w.nodes else w.nodes.erase cur) = before ++ a :: rest := by
    rw [ht.list_eq, hmissile]
    by_cases hdoomed : m.Doomed
    · have hpre : cur ∉ pre := fun hmem => ht.at_cur.notMem (List.mem_append_left _ hmem)
      rw [ht.gone hdoomed, if_pos hdoomed, if_neg (by decide), hnodes, List.erase_append_right _ hpre,
        List.erase_cons_head]
    · rw [ht.visited.stays hdoomed, if_neg hdoomed, if_pos (by rfl), hnodes]
  simp only [Watched.after, hcursor, hlist, hstruck]

theorem step_keeps (hs : w.Sound) (hf : w.Fair) (hstep : w.Step e w') : w'.Sound ∧ w'.Fair := by
  obtain ⟨hkernel, hafter⟩ := hstep
  obtain ⟨k, hk⟩ : ∃ k, k = w'.kernel := ⟨_, rfl⟩
  rw [← hk] at hkernel hafter
  rw [hafter]
  clear hafter hk
  obtain ⟨ns, hdoes⟩ := step_does hs.linked hkernel
  have hl := does_linked hs.linked hdoes
  have hscreen : ∀ v, ∃ s, (redrawCitiesCrosshairs v).game = { v.game with video := s } := fun v => by
    obtain ⟨s, hv⟩ := redrawCitiesCrosshairs_eq v
    exact ⟨s, by rw [hv]⟩
  cases hdoes with
  | startgame hcmd =>
    rw [after_aside (by rw [hcmd]; decide) (Event.added_of_ne (by rw [hcmd]; decide))]
    exact ⟨hs.screen hl rfl, hf.screen rfl rfl⟩
  | movexhairs hcmd =>
    rw [after_aside (by rw [hcmd]; decide) (Event.added_of_ne (by rw [hcmd]; decide))]
    exact ⟨hs.screen hl rfl, hf.screen rfl rfl⟩
  | @addmissile arg cmd h m hcmd hcopied hp hfree hcursor =>
    have hadded : (Event.ioctl arg cmd h).added = some (h.block, m) := by
      rw [Event.added, if_pos ⟨hcmd, hp⟩, hcopied, Option.map_some]
    have hafter : ∀ k, w.after (.ioctl arg cmd h) k = { w with
        kernel := k
        added := w.added ++ [m.c]
        serial := Function.update w.serial h.block w.added.length
        nodes := h.block :: w.nodes } := fun k => by
      simp only [Watched.after]
      rw [if_neg (by rw [hcmd]; decide), hadded]
    rw [hafter]
    exact keeps_added hs hf hfree hl
  | getstatus hanswers =>
    rw [after_aside (by rw [hanswers.1]; decide) (Event.added_of_ne (by rw [hanswers.1]; decide))]
    exact ⟨hs.screen hl rfl, hf.screen rfl rfl⟩
  | @endgame arg cmd h hcmd hcursor =>
    have hafter : ∀ k, w.after (.ioctl arg cmd h) k = { w with kernel := k, nodes := [] } := fun k => by
      simp only [Watched.after]
      rw [if_pos hcmd]
    rw [hafter]
    exact ⟨⟨hl, by simp, by simp⟩, ⟨hf.score, hf.once, hf.point, by simp⟩⟩
  | nothing hcmd hadded =>
    rw [after_aside hcmd.2.2 hadded]
    exact ⟨hs.screen hl rfl, hf.screen rfl rfl⟩
  | idle hns =>
    obtain ⟨s, hv⟩ := hscreen w.kernel
    exact ⟨hs.screen hl (by rw [hv]), hf.screen (by rw [hv]) (by rw [hv])⟩
  | begin hns =>
    exact ⟨hs.screen hl rfl, hf.screen rfl rfl⟩
  | @last pre post before cur a m g hcursor hns ht =>
    obtain ⟨s, hv⟩ := hscreen { w.kernel with game := g, cursor := none }
    have hmissile : (w.kernel.lastPass g).game.missile = g.missile := by rw [Kernel.lastPass, hv]
    have hscore : (w.kernel.lastPass g).game.score = g.score := by rw [Kernel.lastPass, hv]
    rw [after_pass hns hcursor ht hmissile]
    exact ⟨sound_pass hs hns ht hl hmissile _, fair_pass hs hf hns ht hmissile hscore⟩
  | on hcursor hns ht =>
    rw [after_pass hns hcursor ht rfl]
    exact ⟨sound_pass hs hns ht hl rfl _, fair_pass hs hf hns ht rfl rfl⟩

/-! ### Runs -/

theorem boot_sound (video : Nat → UInt8) : (Watched.boot video).Sound := ⟨boot_linked video, nofun, nofun⟩

theorem boot_fair (video : Nat → UInt8) : (Watched.boot video).Fair := ⟨rfl, List.nodup_nil, nofun, nofun⟩

theorem run_keeps (hrun : Run Watched.Step (Watched.boot video) es w) : w.Sound ∧ w.Fair :=
  hrun.invariant (I := fun w => w.Sound ∧ w.Fair) (fun _ _ _ h hstep => step_keeps h.1 h.2 hstep)
    ⟨boot_sound video, boot_fair video⟩

theorem after_kernel (w : Watched) (e : Event) (k : Kernel) : (w.after e k).kernel = k := by
  unfold Watched.after
  split
  · split
    · rfl
    · split <;> rfl
  · rfl
  · split <;> rfl

theorem step_after (hstep : w.kernel.Step e k) : w.Step e (w.after e k) := by
  rw [Watched.Step, after_kernel]
  exact ⟨hstep, rfl⟩

theorem watched_run (hrun : Run Kernel.Step k es k') (w : Watched) (hw : w.kernel = k) :
    ∃ w', Run Watched.Step w es w' ∧ w'.kernel = k' := by
  induction hrun generalizing w with
  | nil => exact ⟨w, .nil w, hw⟩
  | @cons s t u e es hstep _ ih =>
    rw [← hw] at hstep
    obtain ⟨w', hrun', hw'⟩ := ih (w.after e t) (after_kernel w e t)
    exact ⟨w', .cons (step_after hstep) hrun', hw'⟩

theorem watched_play {size : Nat} (hl : w.kernel.Linked ns) (hsize : ns.length + es.length ≤ size)
    (h : w.play size es = .ok w') : Run Watched.Step w es w' := by
  induction es generalizing w ns with
  | nil =>
    cases h
    exact .nil _
  | cons e es ih =>
    obtain ⟨k, hk, h⟩ := bind_eq_ok.1 h
    rw [List.length_cons] at hsize
    have hrun := play_run hl (by rw [List.length_singleton]; omega) hk
    rcases hrun with - | ⟨hstep, hnil⟩
    cases hnil
    obtain ⟨ns', hdoes⟩ := step_does hl hstep
    have hlen := Does.length_le hdoes
    have hl' := does_linked hl hdoes
    rw [← after_kernel w e k] at hl'
    exact .cons (step_after hstep) (ih hl' (by omega) h)

/-- The score is the number of points, there is one point for an enemy at most, and each was given while a
missile of the player in range was treated as exploding. -/
theorem points_of_run (hrun : Run Watched.Step (Watched.boot video) es w) :
    w.kernel.game.score = w.points.length ∧ w.points.length ≤ w.added.count enemy ∧
      (w.points.map Point.victim).Nodup ∧
      ∀ pt ∈ w.points, w.added[pt.victim]? = some enemy ∧ ∃ m i, pt.bomb = some m ∧ pt.target = some i ∧
        m.c = player ∧ m.Explodes ∧ InRange m.bomb i := by
  obtain ⟨-, hf⟩ := run_keeps hrun
  refine ⟨hf.score, ?_, hf.once, hf.point⟩
  have hle := length_le_count hf.once fun n hn => by
    obtain ⟨pt, hpt, rfl⟩ := List.mem_map.1 hn
    exact (hf.point pt hpt).1
  rwa [List.length_map] at hle

/-- A missile of the player that has arrived. -/
def someStar : Missile := ⟨0, 0xa8000, 0xa8000, 0, 0, 10, 10, 0, player⟩

/-- An enemy on its way down, next to it. -/
def someEnemy : Missile := ⟨0, 0xb8000, 0xa8000, 0, 0x1000, 20, 24, 0, enemy⟩

/-- The missile of the player explodes and hits the enemy. -/
theorem points_after_hit : ∃ w, Run Watched.Step (Watched.boot fun _ => 32)
      [addEvent 4096 someStar, addEvent 8192 someEnemy, .tick, .pass, .pass] w ∧
    w.kernel.game.score = 1 ∧ w.points.length ≤ w.added.count enemy := by
  have hplay : (Kernel.play 5 [addEvent 4096 someStar, addEvent 8192 someEnemy, .tick, .pass, .pass]
      (Kernel.boot fun _ => 32)).toOption.map (fun k => k.game.score) = some 1 := by decide +kernel
  obtain ⟨k, hrun, hscore⟩ := play_exists (boot_linked _) (by decide) hplay
  obtain ⟨w, hw, rfl⟩ := watched_run hrun (Watched.boot fun _ => 32) rfl
  exact ⟨w, hw, hscore, (points_of_run hw).2.1⟩

end Watched

end Ece391.Mp1
