import Mathlib.Data.List.Nodup
import Mathlib.Logic.Function.Basic

/-!
# Singly linked lists

`next` gives the pointer stored in a node, if the node is allocated. `Chain null next p ns` says that the
pointer `p` leads through the nodes `ns`, one after the other, to the null pointer; such a list is
acyclic.
-/

namespace Ece391

variable {α : Type} {null : α} {next : α → Option α}

inductive Chain (null : α) (next : α → Option α) : α → List α → Prop
  | nil : Chain null next null []
  | cons {p q : α} {ns : List α} :
      p ≠ null → next p = some q → Chain null next q ns → Chain null next p (p :: ns)

namespace Chain

variable {p q : α} {ns ms : List α}

theorem eq_null (h : Chain null next p []) : p = null := by
  cases h
  rfl

theorem head_eq (h : Chain null next p (q :: ns)) : p = q := by
  cases h
  rfl

theorem ne_null (h : Chain null next p (q :: ns)) : q ≠ null := by
  cases h with
  | cons hne _ _ => exact hne

theorem tail (h : Chain null next p (q :: ns)) : ∃ r, next q = some r ∧ Chain null next r ns := by
  cases h with
  | cons _ hnext hrest => exact ⟨_, hnext, hrest⟩

/-- A pointer leads through one list only. -/
theorem unique (h : Chain null next p ns) (h' : Chain null next p ms) : ns = ms := by
  induction h generalizing ms with
  | nil =>
    cases h' with
    | nil => rfl
    | cons hne _ _ => exact absurd rfl hne
  | cons hne hnext _ ih =>
    cases h' with
    | nil => exact absurd rfl hne
    | cons _ hnext' hrest =>
      rw [hnext] at hnext'
      cases hnext'
      rw [ih hrest]

theorem drop {pre post : List α} (h : Chain null next p (pre ++ q :: post)) :
    Chain null next q (q :: post) := by
  induction pre generalizing p with
  | nil =>
    have hq := h.head_eq
    subst hq
    exact h
  | cons a pre ih =>
    obtain ⟨r, -, hrest⟩ := h.tail
    exact ih hrest

theorem allocated (h : Chain null next p ns) : ∀ a ∈ ns, a ≠ null ∧ ∃ r, next a = some r := by
  intro a ha
  obtain ⟨pre, post, rfl⟩ := List.append_of_mem ha
  have hdrop := h.drop
  obtain ⟨r, hnext, -⟩ := hdrop.tail
  exact ⟨hdrop.ne_null, r, hnext⟩

/-- A node that came twice would lead through a list and through its own end. -/
theorem nodup (h : Chain null next p ns) : ns.Nodup := by
  induction h with
  | nil => exact List.nodup_nil
  | @cons p q ns hne hnext hrest ih =>
    refine List.nodup_cons.2 ⟨fun hmem => ?_, ih⟩
    obtain ⟨pre, post, hsplit⟩ := List.append_of_mem hmem
    have hagain : Chain null next p (p :: post) := by
      rw [hsplit] at hrest
      exact hrest.drop
    have hsame := hagain.unique (.cons hne hnext hrest)
    have hlen := congrArg List.length hsame
    rw [hsplit] at hlen
    simp only [List.length_cons, List.length_append] at hlen
    omega

/-- Only the pointers in the nodes of the list count. -/
theorem congr {next' : α → Option α} (h : Chain null next p ns) (hsame : ∀ a ∈ ns, next' a = next a) :
    Chain null next' p ns := by
  induction h with
  | nil => exact .nil
  | cons hne hnext _ ih =>
    refine .cons hne ?_ (ih fun a ha => hsame a (List.mem_cons_of_mem _ ha))
    rw [hsame _ List.mem_cons_self, hnext]

section Update

variable [DecidableEq α]

theorem update_other {a : α} {v : Option α} (h : Chain null next p ns) (ha : a ∉ ns) :
    Chain null (Function.update next a v) p ns :=
  h.congr fun _ hb => Function.update_of_ne (ne_of_mem_of_not_mem hb ha) _ _

/-- The node behind `a` is taken out by linking `a` to what is behind it. -/
theorem unlink {pre post : List α} {a b r : α} (h : Chain null next p (pre ++ a :: b :: post))
    (hb : next b = some r) : Chain null (Function.update next a (some r)) p (pre ++ a :: post) := by
  induction pre generalizing p with
  | nil =>
    have hnodup := h.nodup
    cases h with
    | cons hne _ hrest =>
      obtain ⟨r', hnext, hpost⟩ := hrest.tail
      rw [hb] at hnext
      cases hnext
      have ha : a ∉ post := fun hmem => (List.nodup_cons.1 hnodup).1 (List.mem_cons_of_mem _ hmem)
      exact .cons hne (Function.update_self _ _ _) (hpost.update_other ha)
  | cons c pre ih =>
    have hnodup := h.nodup
    cases h with
    | cons hne hnext hrest =>
      have hc : c ≠ a := by
        rintro rfl
        exact (List.nodup_cons.1 hnodup).1 (List.mem_append_right _ List.mem_cons_self)
      exact .cons hne ((Function.update_of_ne hc _ _).trans hnext) (ih hrest)

end Update

end Chain

/-! ### Optional pointers -/

section Optional

variable {β : Type} {succ : β → Option β}

/-- The list through the nodes `ns` where a pointer is a node or `none`, and every node has a successor. -/
def Path (succ : β → Option β) (p : Option β) (ns : List β) : Prop :=
  Chain none (fun q => q.map succ) p (ns.map some)

namespace Path

variable {p : Option β} {a : β} {ns : List β}

theorem nil : Path succ none [] := Chain.nil

theorem cons (h : Path succ (succ a) ns) : Path succ (some a) (a :: ns) :=
  Chain.cons (Option.some_ne_none a) rfl h

theorem eq_none (h : Path succ p []) : p = none := Chain.eq_null h

theorem head_eq (h : Path succ p (a :: ns)) : p = some a := Chain.head_eq h

theorem tail (h : Path succ p (a :: ns)) : Path succ (succ a) ns := by
  obtain ⟨q, hq, hrest⟩ := Chain.tail h
  cases hq
  exact hrest

theorem nodup (h : Path succ p ns) : ns.Nodup := (Chain.nodup h).of_map some

variable [DecidableEq β]

theorem map_update (succ : β → Option β) (a : β) (v : Option β) :
    (fun q : Option β => q.map (Function.update succ a v)) =
      Function.update (fun q => q.map succ) (some a) (some v) := by
  funext q
  cases q with
  | none => exact (Function.update_of_ne (Option.some_ne_none a).symm _ _).symm
  | some b =>
    by_cases hb : b = a
    · rw [hb, Function.update_self, Option.map_some, Function.update_self]
    · rw [Function.update_of_ne fun h => hb (Option.some.inj h), Option.map_some, Option.map_some,
        Function.update_of_ne hb]

theorem update_other {v : Option β} (h : Path succ p ns) (ha : a ∉ ns) :
    Path (Function.update succ a v) p ns := by
  have hmap : some a ∉ ns.map some := fun hmem => by
    obtain ⟨b, hb, heq⟩ := List.mem_map.1 hmem
    cases heq
    exact ha hb
  unfold Path
  rw [map_update]
  exact Chain.update_other h hmap

/-- A new node is put in front of the list. -/
theorem push (h : Path succ p ns) (ha : a ∉ ns) : Path (Function.update succ a p) (some a) (a :: ns) := by
  refine cons ?_
  rw [Function.update_self]
  exact h.update_other ha

/-- The node behind `a` is taken out. -/
theorem unlink {pre post : List β} {b : β} (h : Path succ p (pre ++ a :: b :: post)) :
    Path (Function.update succ a (succ b)) p (pre ++ a :: post) := by
  unfold Path at h ⊢
  rw [List.map_append, List.map_cons, List.map_cons] at h
  rw [map_update, List.map_append, List.map_cons]
  exact Chain.unlink h rfl

end Path

end Optional

end Ece391
