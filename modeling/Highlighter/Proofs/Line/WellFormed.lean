import Highlighter.Proofs.Line.Congruence

set_option autoImplicit false

namespace Highlighter

structure Frame.Within (graph : RuleGraph) (frame outer : Frame) : Prop where
  spans : frame.Spans graph
  deeper : frame.depth = outer.depth + 1
  name : outer.contentScopes.entries <:+ frame.nameScopes.entries
  content : frame.nameScopes.entries <:+ frame.contentScopes.entries

theorem Grammar.Nests.within {grammar : Grammar} {outer : Stack} {frame : Frame}
    (nests : grammar.Nests outer frame) : frame.Within grammar.graph outer.top := by
  obtain ⟨name, named⟩ := nests.named
  obtain ⟨inner, content⟩ := nests.content
  exact ⟨nests.spans, nests.deeper, named ▸ pathAfter_extends _ name,
    content ▸ pathAfter_extends _ inner⟩

namespace Frame

variable {graph : RuleGraph}

theorem depth_of_within {frame : Frame} {below : List Frame}
    (nested : (frame :: below).IsChain (Within graph))
    (bottom : (frame :: below).getLast?.map (·.depth) = some 1) :
    frame.depth = below.length + 1 := by
  induction below generalizing frame with
  | nil => exact Option.some.inj bottom
  | cons outer rest ih =>
    obtain ⟨within, inner⟩ := List.isChain_cons_cons.mp nested
    rw [within.deeper, ih inner bottom, List.length_cons]

theorem depths_of_within {frames : List Frame} (nested : frames.IsChain (Within graph))
    (bottom : frames.getLast?.map (·.depth) = some 1) :
    frames.reverse.map (·.depth) = List.range' 1 frames.length := by
  induction frames with
  | nil => rfl
  | cons frame below ih =>
    have depth := depth_of_within nested bottom
    rw [List.reverse_cons, List.map_append, List.length_cons, List.range'_1_concat]
    cases below with
    | nil => simp [depth]
    | cons outer rest =>
      rw [ih (List.isChain_cons_cons.mp nested).2 bottom, List.map_singleton, depth, Nat.add_comm]

end Frame

namespace Stack

/-- The outermost frame is the one that a document starts with, under whatever theme it was read
then. -/
structure WellFormed (grammar : Grammar) (stack : Stack) : Prop where
  rooted : ∃ theme, stack.frames.getLast? = some (grammar.withTheme theme).firstStack.top
  nested : stack.frames.IsChain (Frame.Within grammar.graph)
  counted : stack.frames.reverse.map (·.depth) = List.range' 1 stack.frames.length

namespace WellFormed

variable {grammar : Grammar} {stack : Stack}

theorem of_nested (rooted : ∃ theme, stack.frames.getLast? =
      some (grammar.withTheme theme).firstStack.top)
    (nested : stack.frames.IsChain (Frame.Within grammar.graph)) : stack.WellFormed grammar := by
  refine ⟨rooted, nested, Frame.depths_of_within nested ?_⟩
  obtain ⟨theme, bottom⟩ := rooted
  rw [bottom]
  rfl

theorem pop (formed : stack.WellFormed grammar) : stack.pop.WellFormed grammar := by
  obtain ⟨top, below⟩ := stack
  cases below with
  | nil => exact formed
  | cons frame rest => exact of_nested formed.rooted formed.nested.tail

theorem push (formed : stack.WellFormed grammar) {frame : Frame}
    (within : frame.Within grammar.graph stack.top) : (stack.push frame).WellFormed grammar :=
  of_nested formed.rooted (List.isChain_cons_cons.mpr ⟨within, formed.nested⟩)

theorem first (grammar : Grammar) (theme : Option Theme) :
    (grammar.withTheme theme).firstStack.WellFormed grammar :=
  of_nested ⟨theme, rfl⟩ (List.isChain_singleton _)

end WellFormed

end Stack

namespace Grammar

variable {grammar : Grammar}

theorem wellFormed_grounds (grammar : Grammar) (theme : Option Theme) :
    (grammar.withTheme theme).Grounds (fun _ => True) (·.WellFormed grammar) where
  grows := fun _ _ _ => trivial
  on := fun _ _ _ _ => ⟨trivial, trivial⟩
  pop := fun _ formed => formed.pop
  push := fun _ _ formed nests => formed.push nests.within

theorem rooted_grows (scopes : List String) (path : ScopePath) (name : Option String)
    (rooted : scopes <+: path.names) : scopes <+: (grammar.pathAfter path name).names :=
  rooted.trans (names_pathAfter path name)

theorem firstStack_rooted (grammar : Grammar) (theme : Option Theme) :
    (grammar.withTheme theme).firstStack.OnPaths
      fun path => grammar.firstStack.contentScopes.names <+: path.names := by
  have same : grammar.firstStack.contentScopes.names <+:
      (grammar.withTheme theme).firstStack.contentScopes.names := by
    rw [firstStack_names, firstStack_names]
    rfl
  intro frame member
  obtain rfl := List.mem_singleton.mp member
  exact ⟨same, same⟩

/-- Whatever lines come before, whenever time runs out and however the theme changes, a line ends
with a well-formed stack, and all its tokens have the scopes that the first stack starts with. -/
theorem tokenize_wellFormed (grammar : Grammar) (theme : Option Theme) (prior : Option Stack)
    (earlier : ∀ stack, prior = some stack →
      Reached (fun other => ∃ theme, other = grammar.withTheme theme) stack)
    (depth : Nat) (line : String) (checks : Option Nat) (isPacked : Bool)
    (caches : Caches (grammar.withTheme theme)) :
    let result := ((tokenize depth line prior checks isPacked).run caches).1
    result.stack.WellFormed grammar ∧
      ∀ token ∈ result.emitted.tokens, grammar.firstStack.contentScopes.names <+: token.scopes := by
  have formed := tokenize_grounded
    (by rintro _ ⟨theme, rfl⟩; exact wellFormed_grounds grammar theme)
    (by rintro _ ⟨theme, rfl⟩; exact .first grammar theme)
    ⟨theme, rfl⟩ depth line earlier checks isPacked caches
  have rooted := tokenize_grounded (fun other _ => onPaths_grounds (rooted_grows _))
    (by rintro _ ⟨theme, rfl⟩; exact firstStack_rooted grammar theme)
    ⟨theme, rfl⟩ depth line earlier checks isPacked caches
  refine ⟨formed.1, fun token member => ?_⟩
  obtain ⟨path, starts, scopes, _⟩ := rooted.2 token member
  exact scopes ▸ starts

theorem tokenize_wellFormed_anchored :
    let result := ((tokenize 9 "a" (some (anchoredStack 0 false)) none false).run
      (Caches.empty (anchored.withTheme none))).1
    (anchoredStack 0 false).depth = 2 ∧ result.stack.WellFormed anchored ∧
      ∀ token ∈ result.emitted.tokens,
        anchored.firstStack.contentScopes.names <+: token.scopes := by
  refine ⟨rfl, tokenize_wellFormed anchored none _ ?_ 9 "a" none false _⟩
  rintro stack same
  obtain rfl := Option.some.inj same
  have opened : Reached (fun other => ∃ theme, other = anchored.withTheme theme)
      (anchoredLine 0 "x" none).stack :=
    .line ⟨none, rfl⟩ 0 "x" none (fun _ => nofun) none false (Caches.empty anchored)
  exact anchored_x ▸ opened

end Grammar

end Highlighter
