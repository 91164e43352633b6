import Highlighter.Proofs.Line.Moves

set_option autoImplicit false

namespace Highlighter

open Regex (Match Region)

-- Anchors differ only where no pattern could tell.
def Grammar.AnchorsAgree (grammar : Grammar) (a b : Option Nat) : Prop :=
  a = b ∨ grammar.IgnoresAnchor

namespace Frame

structure Agrees (grammar : Grammar) (a b : Frame) : Prop where
  depth : a.depth = b.depth
  rule : a.rule = b.rule
  resolved : a.resolved = b.resolved
  nameScopes : a.nameScopes = b.nameScopes
  contentScopes : a.contentScopes = b.contentScopes
  resolves : grammar.Resolves a

-- The frames were opened on the same place of one text.
structure AgreesHere (grammar : Grammar) (a b : Frame) : Prop where
  entered : a.entered = b.entered
  anchor : grammar.AnchorsAgree a.anchor b.anchor

theorem Agrees.refl {grammar : Grammar} {frame : Frame} (resolves : grammar.Resolves frame) :
    frame.Agrees grammar frame := ⟨rfl, rfl, rfl, rfl, rfl, resolves⟩

-- The `fresh` topmost frames were opened on one text.
inductive AllAgree (grammar : Grammar) : Nat → List Frame → List Frame → Prop
  | nil (fresh : Nat) : AllAgree grammar fresh [] []
  | cons {fresh : Nat} {a b : Frame} {as bs : List Frame} (agrees : a.Agrees grammar b)
    (here : 0 < fresh → a.AgreesHere grammar b) (rest : AllAgree grammar (fresh - 1) as bs) :
    AllAgree grammar fresh (a :: as) (b :: bs)

namespace AllAgree

variable {grammar : Grammar} {fresh : Nat} {as bs : List Frame}

theorem refl {frames : List Frame} (resolves : ∀ frame ∈ frames, grammar.Resolves frame) :
    AllAgree grammar 0 frames frames := by
  induction frames with
  | nil => exact .nil 0
  | cons frame rest ih =>
    refine .cons (Agrees.refl (resolves frame (by simp))) (fun some => absurd some (by simp)) ?_
    exact ih fun other member => resolves other (List.mem_cons_of_mem _ member)

theorem fewer (agree : AllAgree grammar fresh as bs) {less : Nat} (le : less ≤ fresh) :
    AllAgree grammar less as bs := by
  induction agree generalizing less with
  | nil => exact .nil less
  | cons agrees here _ ih =>
    refine .cons agrees (fun some => here (by omega)) (ih (by omega))

theorem length_eq (agree : AllAgree grammar fresh as bs) : as.length = bs.length := by
  induction agree with
  | nil => rfl
  | cons _ _ _ ih => simp [ih]

theorem hasOpened (agree : AllAgree grammar fresh as bs) (rule : RuleId) (place : Option Nat) :
    ((as.take fresh).takeWhile fun frame => frame.entered == place).any (·.rule == rule) =
      ((bs.take fresh).takeWhile fun frame => frame.entered == place).any (·.rule == rule) := by
  induction agree with
  | nil => rfl
  | cons agrees here _ ih =>
    rename_i fresh a b as bs _
    cases fresh with
    | zero => simp
    | succ fresh =>
      have entered := (here (Nat.succ_pos _)).entered
      simp only [Nat.add_sub_cancel] at ih
      simp only [List.take_succ_cons, List.takeWhile_cons, entered]
      split
      · simp [agrees.rule, ih]
      · rfl

end AllAgree

end Frame

def Stack.Agrees (grammar : Grammar) (fresh : Nat) (a b : Stack) : Prop :=
  Frame.AllAgree grammar fresh a.frames b.frames

namespace Stack.Agrees

variable {grammar : Grammar} {fresh : Nat} {a b : Stack}

theorem refl {stack : Stack} (resolves : ∀ frame ∈ stack.frames, grammar.Resolves frame) :
    stack.Agrees grammar 0 stack := Frame.AllAgree.refl resolves

theorem top (agrees : a.Agrees grammar fresh b) : a.top.Agrees grammar b.top := by
  cases agrees with
  | cons agrees => exact agrees

theorem here (agrees : a.Agrees grammar fresh b) (some : 0 < fresh) :
    a.top.AgreesHere grammar b.top := by
  cases agrees with
  | cons _ here => exact here some

theorem below (agrees : a.Agrees grammar fresh b) :
    Frame.AllAgree grammar (fresh - 1) a.below b.below := by
  cases agrees with
  | cons _ _ rest => exact rest

theorem scopes (agrees : a.Agrees grammar fresh b) : a.contentScopes = b.contentScopes :=
  agrees.top.contentScopes

theorem fewer (agrees : a.Agrees grammar fresh b) {less : Nat} (le : less ≤ fresh) :
    a.Agrees grammar less b := Frame.AllAgree.fewer agrees le

theorem push (agrees : a.Agrees grammar fresh b) {x y : Frame} (frames : x.Agrees grammar y)
    (here : x.AgreesHere grammar y) : (a.push x).Agrees grammar (fresh + 1) (b.push y) :=
  .cons frames (fun _ => here) agrees

theorem pop (agrees : a.Agrees grammar fresh b) : a.pop.Agrees grammar (fresh - 1) b.pop := by
  obtain ⟨top, below⟩ := a
  obtain ⟨other, under⟩ := b
  have rest := agrees.below
  cases rest with
  | nil => exact agrees.fewer (Nat.sub_le _ _)
  | cons frames here rest => exact .cons frames here rest

theorem withContent (agrees : a.Agrees grammar fresh b) :
    (a.withContent a.top.nameScopes).Agrees grammar fresh (b.withContent b.top.nameScopes) := by
  cases agrees with
  | cons agrees here rest =>
    refine .cons ?_ (fun some => ⟨(here some).entered, (here some).anchor⟩) rest
    exact ⟨agrees.depth, agrees.rule, agrees.resolved, agrees.nameScopes, agrees.nameScopes,
      agrees.resolves⟩

theorem depth (agrees : a.Agrees grammar fresh b) : a.depth = b.depth := agrees.top.depth

theorem length_eq (agrees : a.Agrees grammar fresh b) : a.frames.length = b.frames.length :=
  Frame.AllAgree.length_eq agrees

theorem hasOpened (agrees : a.Agrees grammar fresh b) (rule : RuleId) (place : Option Nat) :
    a.hasOpened rule place fresh = b.hasOpened rule place fresh :=
  Frame.AllAgree.hasOpened agrees rule place

theorem enclosing (agrees : a.Agrees grammar fresh b) :
    List.Forall₂ (Stack.Agrees grammar 0) a.enclosing b.enclosing := by
  obtain ⟨top, below⟩ := a
  obtain ⟨other, under⟩ := b
  have all : Stack.Agrees grammar 0 ⟨top, below⟩ ⟨other, under⟩ := agrees.fewer (Nat.zero_le _)
  clear agrees
  simp only [Stack.enclosing]
  induction below generalizing top other under with
  | nil =>
    cases all.below with
    | nil => exact .cons all .nil
  | cons frame rest ih =>
    have inner := all.below
    cases inner with
    | cons frames here rest => exact .cons all (ih _ _ _ (.cons frames here rest))

end Stack.Agrees

structure Progress.Agrees (grammar : Grammar) (a b : Progress) : Prop where
  offset : a.offset = b.offset
  stack : a.stack.Agrees grammar a.fresh b.stack
  fresh : a.fresh = b.fresh
  anchor : grammar.AnchorsAgree a.anchor b.anchor
  onFirstLine : a.onFirstLine = b.onFirstLine

theorem Progress.Agrees.moveTo {grammar : Grammar} {a b : Progress} (agrees : a.Agrees grammar b)
    (offset : Nat) : (a.moveTo offset).Agrees grammar (b.moveTo offset) := by
  unfold Progress.moveTo
  rw [agrees.offset]
  split
  · exact ⟨rfl, agrees.stack, agrees.fresh, agrees.anchor, rfl⟩
  · exact agrees

inductive Outcome.Agrees (grammar : Grammar) : Outcome → Outcome → Prop
  | more {a b : Progress} (agrees : a.Agrees grammar b) : Outcome.Agrees grammar (.more a) (.more b)
  | done {a b : Stack} (agrees : a.Agrees grammar 0 b) : Outcome.Agrees grammar (.done a) (.done b)

theorem Pattern.search_agree {grammar : Grammar} {text : List Char} (pattern : Pattern)
    (uses : grammar.Uses pattern) (cursor : Text.Cursor text) (firstLine : Bool)
    (a b : Option Nat) (anchors : grammar.AnchorsAgree a b) (offset : Nat) :
    pattern.search? cursor firstLine (a == some offset) =
      pattern.search? cursor firstLine (b == some offset) := by
  rcases anchors with rfl | ignores
  · rfl
  · exact (ignores pattern uses).search cursor firstLine _ _

namespace Candidate

variable {grammar : Grammar} {text : List Char}

theorem scan_agree (cursor : Text.Cursor text) (firstLine : Bool) (a b : Option Nat)
    (anchors : grammar.AnchorsAgree a b) (candidates : List (Target × Pattern))
    (uses : ∀ target pattern, (target, pattern) ∈ candidates → grammar.Uses pattern) :
    scan ⟨cursor, firstLine, a⟩ candidates = scan ⟨cursor, firstLine, b⟩ candidates := by
  simp only [scan, Pattern.scan]
  rw [Pattern.scanFrom_congr cursor firstLine (a == some cursor.offset) (b == some cursor.offset)]
  intro target pattern member
  exact pattern.search_agree (uses target pattern member) cursor firstLine a b anchors _

theorem own_agree (a b : Frame) (agrees : a.Agrees grammar b) : own grammar a = own grammar b := by
  simp only [own, closing?, agrees.rule, agrees.resolved]

theorem bestInjected_agree (frame : Frame) (resolves : grammar.Resolves frame)
    (cursor : Text.Cursor text) (firstLine : Bool) (a b : Option Nat)
    (anchors : grammar.AnchorsAgree a b) (scopes : List String) (injections : List Injection)
    (all : injections ⊆ grammar.graph.injections) (best : Option (Found × Priority)) :
    bestInjected grammar ⟨cursor, firstLine, a⟩ scopes best injections =
      bestInjected grammar ⟨cursor, firstLine, b⟩ scopes best injections := by
  induction injections generalizing best with
  | nil => rfl
  | cons injection rest ih =>
    obtain ⟨injects, others⟩ := List.cons_subset.mp all
    have same := scan_agree cursor firstLine a b anchors (injected grammar injection)
      fun target pattern member =>
        (injected_offered grammar frame injection injects target pattern member).uses resolves
    simp only [bestInjected, same, ih others]

theorem best_agree (cursor : Text.Cursor text) (firstLine : Bool) (a b : Option Nat)
    (anchors : grammar.AnchorsAgree a b) (first second : Stack)
    (agrees : first.top.Agrees grammar second.top) :
    best? grammar ⟨cursor, firstLine, a⟩ first = best? grammar ⟨cursor, firstLine, b⟩ second := by
  have own := scan_agree cursor firstLine a b anchors (own grammar first.top)
    fun target pattern member =>
      (own_offered grammar first.top target pattern member).uses agrees.resolves
  have scopes : first.contentScopes = second.contentScopes := agrees.contentScopes
  rw [own_agree first.top second.top agrees] at own
  simp only [best?, own_agree first.top second.top agrees, own, scopes,
    bestInjected_agree first.top agrees.resolves cursor firstLine a b anchors _ _
      (List.Subset.refl _)]

end Candidate

end Highlighter
