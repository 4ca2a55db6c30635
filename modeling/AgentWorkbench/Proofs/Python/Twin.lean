import AgentWorkbench.Python.Grammar.Basic
import Mathlib.Data.List.Forall2

/-!
The same piece of source at two places. Its tokens and nodes come in pairs, of which the second is
the first one moved; beside that a pair says how far into the source the first one reaches and
which names occur in it.
-/
namespace AgentWorkbench.Python

/-- How far a piece of source is moved, where it ends before that, the names it may hold, and the
tokens after it at its new place. -/
structure Shift where
  distance : Nat
  bound : Nat
  allowed : String → Prop
  rest : List Token

variable {σ : Shift}

/-- Where a stretch ends, at both places. -/
def Shift.Ends (σ : Shift) (e e' : Nat) : Prop :=
  e' = e + σ.distance ∧ e ≤ σ.bound

section Options

variable {α α' β β' : Type} {S : α → α' → Prop} {T : β → β' → Prop}

theorem rel_or {o u : Option α} {o' u' : Option α'} (h : Option.Rel S o o')
    (hu : Option.Rel S u u') : Option.Rel S (o.or u) (o'.or u') := by
  cases h with
  | none => exact hu
  | some h => exact .some h

theorem rel_getD {o : Option α} {o' : Option α'} {a : α} {a' : α'} (h : Option.Rel S o o')
    (ha : S a a') : S (o.getD a) (o'.getD a') := by
  cases h with
  | none => exact ha
  | some h => exact h

theorem rel_map {f : α → β} {f' : α' → β'} {o : Option α} {o' : Option α'}
    (h : Option.Rel S o o') (hf : ∀ a a', S a a' → T (f a) (f' a')) :
    Option.Rel T (o.map f) (o'.map f') := by
  cases h with
  | none => exact .none
  | some h => exact .some (hf _ _ h)

theorem rel_toList {o : Option α} {o' : Option α'} (h : Option.Rel S o o') :
    List.Forall₂ S o.toList o'.toList := by
  cases h with
  | none => exact .nil
  | some h => exact .cons h .nil

end Options

/-- The tokens that end a logical line or delimit blocks. -/
def TokenKind.isBreak : TokenKind → Bool
  | .newline | .indent | .dedent => true
  | _ => false

namespace Token

structure Placed (σ : Shift) (t t' : Token) : Prop where
  start : t'.start = t.start + σ.distance
  stop : t'.stop = t.stop + σ.distance
  bound : t.stop ≤ σ.bound

/-- Tokens at corresponding places. Where a break stands does not matter. -/
structure Twin (σ : Shift) (t t' : Token) : Prop where
  kind : t'.kind = t.kind
  name : ∀ text, t.kind = .name text → σ.allowed text
  placed : t.kind.isBreak = false → Placed σ t t'

end Token

namespace NodeKind

def Allowed (σ : Shift) : NodeKind → Prop
  | .identifier name => σ.allowed name
  | _ => True

end NodeKind

namespace Node

mutual

def moved (d : Nat) : Node → Node
  | mk kind start stop children => mk kind (start + d) (stop + d) (movedList d children)

def movedList (d : Nat) : List Node → List Node
  | [] => []
  | node :: rest => node.moved d :: movedList d rest

end

@[simp] theorem movedList_eq_map (d : Nat) (nodes : List Node) :
    movedList d nodes = nodes.map (moved d) := by
  induction nodes with
  | nil => rfl
  | cons node rest ih => simp [movedList, ih]

@[simp] theorem kind_moved (d : Nat) (n : Node) : (n.moved d).kind = n.kind := by
  cases n; rfl

@[simp] theorem start_moved (d : Nat) (n : Node) : (n.moved d).start = n.start + d := by
  cases n; rfl

@[simp] theorem stop_moved (d : Nat) (n : Node) : (n.moved d).stop = n.stop + d := by
  cases n; rfl

@[simp] theorem children_moved (d : Nat) (n : Node) :
    (n.moved d).children = n.children.map (moved d) := by
  cases n; simp [moved, children]

theorem preorderList_eq_flatMap (nodes : List Node) :
    preorderList nodes = nodes.flatMap preorder := by
  induction nodes with
  | nil => rfl
  | cons node rest ih => simp [preorderList, ih]

/-- A node whose stretch ends within the bound, and whose name is allowed if it has one. -/
structure Sound (σ : Shift) (n : Node) : Prop where
  bound : n.stop ≤ σ.bound
  allowed : n.kind.Allowed σ

/-- Every node below this one is sound, and so is the node. -/
def Within (σ : Shift) (n : Node) : Prop :=
  ∀ m ∈ n.preorder, Sound σ m

theorem within_mk {kind : NodeKind} {start stop : Nat} {children : List Node} :
    Within σ (mk kind start stop children) ↔
      (stop ≤ σ.bound ∧ kind.Allowed σ) ∧ ∀ child ∈ children, Within σ child := by
  simp only [Within, preorder, preorderList_eq_flatMap, List.forall_mem_cons, List.mem_flatMap]
  refine and_congr ⟨fun h => ⟨h.bound, h.allowed⟩, fun h => ⟨h.1, h.2⟩⟩ ?_
  constructor
  · intro h c hc m hm
    exact h m ⟨c, hc, hm⟩
  · rintro h m ⟨c, hc, hm⟩
    exact h c hc m hm

theorem Within.sound {n : Node} (h : Within σ n) : Sound σ n := by
  cases n with
  | mk kind start stop children => exact ⟨(within_mk.1 h).1.1, (within_mk.1 h).1.2⟩

theorem Within.child {n child : Node} (h : Within σ n) (hc : child ∈ n.children) :
    Within σ child := by
  cases n with
  | mk kind start stop children => exact (within_mk.1 h).2 child hc

/-- Nodes at corresponding places. -/
structure Twin (σ : Shift) (n n' : Node) : Prop where
  moved : n' = n.moved σ.distance
  within : n.Within σ

abbrev Twins (σ : Shift) : List Node → List Node → Prop :=
  List.Forall₂ (Twin σ)

theorem twins_iff {ns ns' : List Node} :
    Twins σ ns ns' ↔ ns' = ns.map (Node.moved σ.distance) ∧ ∀ n ∈ ns, n.Within σ := by
  induction ns generalizing ns' with
  | nil => simp
  | cons n ns ih =>
    simp only [List.forall₂_cons_left_iff, ih, List.map_cons, List.forall_mem_cons]
    constructor
    · rintro ⟨m, ms, hm, ⟨rfl, hw⟩, rfl⟩
      exact ⟨by rw [hm.moved], hm.within, hw⟩
    · rintro ⟨rfl, hn, hw⟩
      exact ⟨_, _, ⟨rfl, hn⟩, ⟨rfl, hw⟩, rfl⟩

namespace Twin

variable {n n' : Node} {ns ns' : List Node} {t t' u u' : Token} {kind : NodeKind}

theorem kind_eq (h : Twin σ n n') : n'.kind = n.kind := by
  rw [h.moved, kind_moved]

theorem start_eq (h : Twin σ n n') : n'.start = n.start + σ.distance := by
  rw [h.moved, start_moved]

theorem stop_eq (h : Twin σ n n') : n'.stop = n.stop + σ.distance := by
  rw [h.moved, stop_moved]

theorem bound (h : Twin σ n n') : n.stop ≤ σ.bound :=
  h.within.sound.bound

theorem children (h : Twin σ n n') : Twins σ n.children n'.children := by
  refine twins_iff.2 ⟨?_, fun child hc => h.within.child hc⟩
  rw [h.moved, children_moved]

theorem of_children {start stop start' stop' : Nat} (hs : start' = start + σ.distance)
    (ht : stop' = stop + σ.distance) (hb : stop ≤ σ.bound) (hc : Twins σ ns ns')
    (hk : kind.Allowed σ) :
    Twin σ (Node.mk kind start stop ns) (Node.mk kind start' stop' ns') := by
  obtain ⟨rfl, hw⟩ := twins_iff.1 hc
  subst hs ht
  exact ⟨by simp [Node.moved], within_mk.2 ⟨⟨hb, hk⟩, hw⟩⟩

theorem leaf (ht : Token.Placed σ t t') (hk : kind.Allowed σ) :
    Twin σ (Node.leaf t kind) (Node.leaf t' kind) :=
  of_children ht.start ht.stop ht.bound .nil hk

theorem between (ht : Token.Placed σ t t') (hu : Token.Placed σ u u') (hc : Twins σ ns ns')
    (hk : kind.Allowed σ) :
    Twin σ (Node.between t u kind ns) (Node.between t' u' kind ns') :=
  of_children ht.start hu.stop hu.bound hc hk

/-- Where the last of several nodes ends, or a token if there is no node. -/
theorem last_stop {e e' : Nat} (hc : Twins σ ns ns') (he : e' = e + σ.distance)
    (hb : e ≤ σ.bound) :
    (ns'.getLast?.map Node.stop).getD e' = (ns.getLast?.map Node.stop).getD e + σ.distance ∧
      (ns.getLast?.map Node.stop).getD e ≤ σ.bound := by
  obtain ⟨rfl, hw⟩ := twins_iff.1 hc
  cases h : ns.getLast? with
  | none => simp [List.getLast?_map, h, he, hb]
  | some last =>
    have := (hw last (List.mem_of_getLast? h)).sound.bound
    simpa [List.getLast?_map, h] using this

theorem onward (ht : Token.Placed σ t t') (hc : Twins σ ns ns')
    (hk : kind.Allowed σ) :
    Twin σ (Node.onward t kind ns) (Node.onward t' kind ns') :=
  have h := last_stop hc ht.stop ht.bound
  of_children ht.start h.1 h.2 hc hk

theorem spanning (h : Twin σ n n') (hc : Twins σ ns ns') (hk : kind.Allowed σ) :
    Twin σ (Node.spanning kind (n :: ns)) (Node.spanning kind (n' :: ns')) := by
  have he := last_stop hc h.stop_eq h.bound
  simp only [Node.spanning, List.head?_cons, Option.map_some, Option.getD_some,
    List.getLast?_cons]
  refine of_children h.start_eq ?_ ?_ (.cons h hc) hk
  · simpa [Option.getD_map] using he.1
  · simpa [Option.getD_map] using he.2

theorem spanning_of_ne_nil (h : ns ≠ []) (hc : Twins σ ns ns') (hk : kind.Allowed σ) :
    Twin σ (Node.spanning kind ns) (Node.spanning kind ns') := by
  cases hc with
  | nil => exact absurd rfl h
  | cons hn hc => exact spanning hn hc hk

theorem chain (h : Twin σ n n') (hc : Twins σ ns ns') :
    Twin σ (Node.chain n ns) (Node.chain n' ns') := by
  cases hc with
  | nil => exact h
  | cons hm hc => exact spanning h (.cons hm hc) trivial

theorem bareTuple {trailing trailing' : Option Token} (h : ns ≠ []) (hc : Twins σ ns ns')
    (ht : Option.Rel (Token.Placed σ) trailing trailing') :
    Twin σ (Node.bareTuple ns trailing) (Node.bareTuple ns' trailing') := by
  cases hc with
  | nil => exact absurd rfl h
  | cons hn hc =>
    cases ht with
    | some ht =>
      have hspan : Twin σ (Node.spanning .tuple (_ :: _)) (Node.spanning .tuple (_ :: _)) :=
        spanning hn hc trivial
      have hs := hspan.start_eq
      cases hc with
      | nil => exact of_children hs ht.stop ht.bound (.cons hn .nil) trivial
      | cons hm hc => exact of_children hs ht.stop ht.bound (.cons hn (.cons hm hc)) trivial
    | none =>
      cases hc with
      | nil => exact hn
      | cons hm hc => exact spanning hn (.cons hm hc) trivial

end Twin

mutual

@[simp] theorem isTarget_moved (d : Nat) : ∀ n : Node, (n.moved d).isTarget = n.isTarget
  | .mk kind start stop children => by
    simp only [moved, isTarget, areTargets_moved d children]

@[simp] theorem areTargets_moved (d : Nat) : ∀ ns : List Node,
    isTarget.areTargets (movedList d ns) = isTarget.areTargets ns
  | [] => rfl
  | n :: ns => by simp only [movedList, isTarget.areTargets, isTarget_moved d n,
      areTargets_moved d ns]

end

theorem Twin.isTarget_eq {n n' : Node} (h : Twin σ n n') : n'.isTarget = n.isTarget := by
  rw [h.moved, isTarget_moved]

end Node

end AgentWorkbench.Python
