import Highlighter.Line.Candidate
import Highlighter.Proofs.Regex.Search

set_option autoImplicit false

namespace Highlighter

open Regex (Match Region)

namespace Pattern

variable {text : List Char}

def SearchesForward (pattern : Pattern) : Prop :=
  ∀ (text : List Char) (cursor : Text.Cursor text) (allowStart allowSearch : Bool) (found : Match),
    pattern.search? cursor allowStart allowSearch = some found → cursor.offset ≤ found.whole.start

def IgnoresAnchor (pattern : Pattern) : Prop :=
  ∀ allowStart, pattern.variants.get allowStart true = pattern.variants.get allowStart false

theorem search_within (pattern : Pattern) (cursor : Text.Cursor text)
    (allowStart allowSearch : Bool) (found : Match)
    (searched : pattern.search? cursor allowStart allowSearch = some found) :
    found.Within (Text.byteLength text) := by
  obtain ⟨regex, _, here⟩ := Option.bind_eq_some_iff.mp searched
  exact Regex.search_within regex cursor found here

theorem searchesForward_of_keeps (pattern : Pattern)
    (fixed : ∀ allowStart allowSearch regex,
      pattern.variants.get allowStart allowSearch = some regex → regex.expr.keeps = false) :
    pattern.SearchesForward := by
  intro text cursor allowStart allowSearch found searched
  obtain ⟨regex, variant, here⟩ := Option.bind_eq_some_iff.mp searched
  exact Regex.search_forward regex (fixed allowStart allowSearch regex variant) cursor found here

def unanchored (source : String) (expr : Regex.Expr) : Pattern :=
  let regex : Option Regex := some ⟨expr, []⟩
  ⟨source, false, ⟨regex, regex, regex, regex⟩⟩

def isFixed (pattern : Pattern) : Bool :=
  let fixed (regex : Option Regex) : Bool := regex.all fun regex => !regex.expr.keeps
  fixed pattern.variants.both && fixed pattern.variants.startOnly &&
    fixed pattern.variants.searchOnly && fixed pattern.variants.neither

theorem searchesForward_of_isFixed (pattern : Pattern) (fixed : pattern.isFixed = true) :
    pattern.SearchesForward := by
  apply searchesForward_of_keeps
  intro allowStart allowSearch regex variant
  simp only [isFixed, Bool.and_eq_true] at fixed
  obtain ⟨⟨⟨both, startOnly⟩, searchOnly⟩, neither⟩ := fixed
  cases allowStart <;> cases allowSearch <;> simp_all [Variants.get]

theorem IgnoresAnchor.search {pattern : Pattern} (ignores : pattern.IgnoresAnchor)
    (cursor : Text.Cursor text) (allowStart a b : Bool) :
    pattern.search? cursor allowStart a = pattern.search? cursor allowStart b := by
  have same := ignores allowStart
  cases a <;> cases b <;> simp [search?, same]

theorem scanFrom_some {α : Type} (cursor : Text.Cursor text) (firstLine onAnchor : Bool)
    (P : α → Match → Prop) (patterns : List (α × Pattern))
    (each : ∀ item pattern, (item, pattern) ∈ patterns →
      ∀ found, pattern.search? cursor firstLine onAnchor = some found → P item found)
    (best : Option (α × Match)) (before : ∀ item found, best = some (item, found) → P item found)
    (item : α) (found : Match)
    (scanned : scanFrom cursor firstLine onAnchor best patterns = some (item, found)) :
    P item found := by
  induction patterns generalizing best with
  | nil => exact before item found scanned
  | cons head rest ih =>
    obtain ⟨first, pattern⟩ := head
    have later := ih fun other pattern member => each other pattern (List.mem_cons_of_mem _ member)
    simp only [scanFrom] at scanned
    split at scanned
    · exact later best before scanned
    · rename_i result here
      have correct : ∀ other match', some (first, result) = some (other, match') →
          P other match' := by
        intro other match' same
        obtain ⟨rfl, rfl⟩ := Prod.mk.inj (Option.some.inj same)
        exact each first pattern (by simp) result here
      split at scanned
      · split at scanned
        · exact correct item found scanned
        · exact later _ correct scanned
      · exact later best before scanned

theorem scan_some {α : Type} (patterns : List (α × Pattern)) (cursor : Text.Cursor text)
    (anchor : Option Nat) (firstLine : Bool) (item : α) (found : Match)
    (scanned : scan patterns cursor anchor firstLine = some (item, found)) :
    ∃ pattern, (item, pattern) ∈ patterns ∧
      pattern.search? cursor firstLine (anchor == some cursor.offset) = some found :=
  scanFrom_some cursor firstLine _
    (fun item found => ∃ pattern, (item, pattern) ∈ patterns ∧
      pattern.search? cursor firstLine (anchor == some cursor.offset) = some found)
    patterns (fun _ pattern member _ here => ⟨pattern, member, here⟩) none
    (fun _ _ absent => absurd absent (by simp)) item found scanned

theorem scanFrom_congr {α : Type} (cursor : Text.Cursor text) (firstLine a b : Bool)
    (patterns : List (α × Pattern))
    (same : ∀ item pattern, (item, pattern) ∈ patterns →
      pattern.search? cursor firstLine a = pattern.search? cursor firstLine b)
    (best : Option (α × Match)) :
    scanFrom cursor firstLine a best patterns = scanFrom cursor firstLine b best patterns := by
  induction patterns generalizing best with
  | nil => rfl
  | cons head rest ih =>
    obtain ⟨first, pattern⟩ := head
    have later := ih fun item pattern member => same item pattern (List.mem_cons_of_mem _ member)
    simp only [scanFrom, same first pattern (by simp), later]

end Pattern

namespace Rule

def follow? (rule : Rule) : Option Pattern :=
  match rule.kind with
  | .spanning _ _ closing _ _ _ => some closing
  | .continuing _ _ condition _ _ => some condition
  | .matching _ _ | .holding _ | .capturing _ => none

end Rule

-- The pattern comes of resolving the references in a closing or continuing pattern.
inductive Grammar.Resolved (grammar : Grammar) (pattern : Pattern) : Prop
  | mk {id : RuleId} {rule : Rule} {follow : Pattern} {line : List Char}
    {captures : Nat → Option Region} (known : grammar.graph.rule? id = some rule)
    (follows : rule.follow? = some follow) (refers : follow.refersBack = true)
    (compiled : Pattern.ofSource? (follow.resolve line captures) = some pattern)

inductive Grammar.Uses (grammar : Grammar) (pattern : Pattern) : Prop
  | start {id : RuleId} {rule : Rule} (known : grammar.graph.rule? id = some rule)
    (starts : rule.start? = some pattern)
  | follow {id : RuleId} {rule : Rule} (known : grammar.graph.rule? id = some rule)
    (follows : rule.follow? = some pattern)
  | resolved (resolved : grammar.Resolved pattern)

namespace Grammar

def SearchesForward (grammar : Grammar) : Prop :=
  ∀ pattern, grammar.Uses pattern → pattern.SearchesForward

def IgnoresAnchor (grammar : Grammar) : Prop :=
  ∀ pattern, grammar.Uses pattern → pattern.IgnoresAnchor

def patterns (grammar : Grammar) : List Pattern :=
  grammar.graph.rules.toList.flatMap fun rule => rule.start?.toList ++ rule.follow?.toList

def isPlain (grammar : Grammar) : Bool := grammar.patterns.all (!·.refersBack)

theorem mem_patterns_of_uses (grammar : Grammar) (plain : grammar.isPlain = true)
    {pattern : Pattern} (uses : grammar.Uses pattern) : pattern ∈ grammar.patterns := by
  have follow {id : RuleId} {rule : Rule} {pattern : Pattern}
      (known : grammar.graph.rule? id = some rule) (follows : rule.follow? = some pattern) :
      pattern ∈ grammar.patterns :=
    List.mem_flatMap.mpr ⟨rule, Array.mem_def.mp (Array.mem_of_getElem? known), by simp [follows]⟩
  cases uses with
  | start known starts =>
    exact List.mem_flatMap.mpr
      ⟨_, Array.mem_def.mp (Array.mem_of_getElem? known), by simp [starts]⟩
  | follow known follows => exact follow known follows
  | resolved resolved =>
    obtain ⟨known, follows, refers, _⟩ := resolved
    have free := List.all_eq_true.mp plain _ (follow known follows)
    simp [refers] at free

def isFixed (grammar : Grammar) : Bool := grammar.isPlain && grammar.patterns.all (·.isFixed)

theorem searchesForward_of_isFixed (grammar : Grammar) (fixed : grammar.isFixed = true) :
    grammar.SearchesForward := by
  obtain ⟨plain, all⟩ := Bool.and_eq_true_iff.mp fixed
  intro pattern uses
  have member := grammar.mem_patterns_of_uses plain uses
  exact pattern.searchesForward_of_isFixed (List.all_eq_true.mp all pattern member)

theorem ignoresAnchor_of_variants (grammar : Grammar) (plain : grammar.isPlain = true)
    (atStart : grammar.patterns.map (·.variants.both) = grammar.patterns.map (·.variants.startOnly))
    (inside : grammar.patterns.map (·.variants.searchOnly) =
      grammar.patterns.map (·.variants.neither)) : grammar.IgnoresAnchor := by
  intro pattern uses allowStart
  have member := grammar.mem_patterns_of_uses plain uses
  cases allowStart with
  | true => exact List.map_inj_left.mp atStart pattern member
  | false => exact List.map_inj_left.mp inside pattern member

-- Only the closing or continuing patterns of a grammar's own rules have been resolved.
def Resolves (grammar : Grammar) (frame : Frame) : Prop :=
  ∀ pattern, frame.resolved = some pattern → grammar.Resolved pattern

end Grammar

namespace Candidate

variable (grammar : Grammar)

inductive Comes (frame : Frame) (id : RuleId) : Prop
  | own (member : id ∈ grammar.graph.patterns frame.rule)
  | injected (injection : Injection) (injects : injection ∈ grammar.graph.injections)
    (among : id = injection.rule ∨ id ∈ grammar.graph.patterns injection.rule)

inductive Offers (frame : Frame) : Target → Pattern → Prop
  | rule {id : RuleId} {rule : Rule} {pattern : Pattern} (comes : Comes grammar frame id)
    (known : grammar.graph.rule? id = some rule) (starts : rule.start? = some pattern) :
    Offers frame (.rule id) pattern
  | closing {pattern : Pattern} {last : Bool} (closes : closing? grammar frame = some (pattern, last)) :
    Offers frame .closing pattern

theorem starts_offered (frame : Frame) (id : RuleId)
    (comes : ∀ other ∈ grammar.graph.patterns id, Comes grammar frame other) (target : Target)
    (pattern : Pattern) (member : (target, pattern) ∈ ofRules (grammar.graph.starts id)) :
    Offers grammar frame target pattern := by
  simp only [ofRules, RuleGraph.starts, List.mem_map, List.mem_filterMap, Option.map_eq_some_iff,
    Option.bind_eq_some_iff] at member
  obtain ⟨_, ⟨other, inside, start, ⟨rule, known, starts⟩, rfl⟩, same⟩ := member
  obtain ⟨rfl, rfl⟩ := Prod.mk.inj same
  exact .rule (comes other inside) known starts

theorem own_offered (frame : Frame) (target : Target) (pattern : Pattern)
    (member : (target, pattern) ∈ own grammar frame) : Offers grammar frame target pattern := by
  have fromRules := starts_offered grammar frame frame.rule (fun _ => .own) target pattern
  simp only [own] at member
  split at member
  · exact fromRules member
  · rename_i closer closes
    rcases List.mem_cons.mp member with same | nested
    · obtain ⟨rfl, rfl⟩ := Prod.mk.inj same
      exact .closing closes
    · exact fromRules nested
  · rename_i closer closes
    rcases List.mem_append.mp member with nested | same
    · exact fromRules nested
    · obtain ⟨rfl, rfl⟩ := Prod.mk.inj (List.mem_singleton.mp same)
      exact .closing closes

theorem injected_offered (frame : Frame) (injection : Injection)
    (injects : injection ∈ grammar.graph.injections) (target : Target) (pattern : Pattern)
    (member : (target, pattern) ∈ injected grammar injection) :
    Offers grammar frame target pattern := by
  simp only [injected] at member
  split at member
  · exact absurd member (by simp)
  · rename_i rule known
    split at member
    · exact starts_offered grammar frame _ (fun _ inside => .injected injection injects (.inr inside))
        target pattern member
    · rename_i start starts _
      obtain ⟨rfl, rfl⟩ := Prod.mk.inj (List.mem_singleton.mp member)
      exact .rule (.injected injection injects (.inl rfl)) known starts
    · exact absurd member (by simp)

variable {text : List Char} (position : Position text)

def Offered (frame : Frame) (found : Found) : Prop :=
  ∃ pattern, Offers grammar frame found.target pattern ∧
    pattern.search? position.cursor position.onFirstLine
      (position.anchor == some position.cursor.offset) = some found.result

theorem scan_offered (frame : Frame) (candidates : List (Target × Pattern))
    (offers : ∀ target pattern, (target, pattern) ∈ candidates → Offers grammar frame target pattern)
    (found : Found) (scanned : scan position candidates = some found) :
    Offered grammar position frame found := by
  simp only [scan, Option.map_eq_some_iff] at scanned
  obtain ⟨⟨target, result⟩, here, rfl⟩ := scanned
  obtain ⟨pattern, member, searched⟩ := Pattern.scan_some candidates _ _ _ target result here
  exact ⟨pattern, offers target pattern member, searched⟩

theorem bestInjected_offered (frame : Frame) (scopes : List String)
    (injections : List Injection) (all : injections ⊆ grammar.graph.injections)
    (best : Option (Found × Priority))
    (before : ∀ found priority, best = some (found, priority) →
      Offered grammar position frame found)
    (found : Found) (priority : Priority)
    (chosen : bestInjected grammar position scopes best injections = some (found, priority)) :
    Offered grammar position frame found := by
  induction injections generalizing best with
  | nil => exact before found priority chosen
  | cons injection rest ih =>
    obtain ⟨injects, others⟩ := List.cons_subset.mp all
    simp only [bestInjected] at chosen
    split at chosen
    · exact ih others best before chosen
    · split at chosen
      · exact ih others best before chosen
      · rename_i result here
        have offered : ∀ other rank, some (result, injection.alternative.priority) =
            some (other, rank) → Offered grammar position frame other := by
          intro other rank same
          obtain ⟨rfl, _⟩ := Prod.mk.inj (Option.some.inj same)
          exact scan_offered grammar position frame _
            (injected_offered grammar frame injection injects) result here
        split at chosen
        · split at chosen
          · exact offered found priority chosen
          · exact ih others _ offered chosen
        · exact ih others best before chosen

theorem best_offered (stack : Stack) (found : Found)
    (best : best? grammar position stack = some found) :
    Offered grammar position stack.top found := by
  have fromOwn (own : Found) (here : scan position (Candidate.own grammar stack.top) = some own) :=
    scan_offered grammar position stack.top _ (own_offered grammar stack.top) own here
  have fromInjected (other : Found) (priority : Priority)
      (here : bestInjected grammar position stack.contentScopes.names none
        grammar.graph.injections = some (other, priority)) :=
    bestInjected_offered grammar position stack.top _ _ (List.Subset.refl _) none (by simp) other
      priority here
  simp only [best?, prefer] at best
  split at best
  · exact fromOwn found best
  · rename_i other priority _ here
    obtain rfl := Option.some.inj best
    exact fromInjected other priority here
  · rename_i own other priority ownHere here
    split at best
    · obtain rfl := Option.some.inj best
      exact fromInjected other priority here
    · obtain rfl := Option.some.inj best
      exact fromOwn own ownHere

variable {grammar} {position}

theorem Offers.uses {frame : Frame} {target : Target} {pattern : Pattern}
    (offers : Offers grammar frame target pattern) (resolves : grammar.Resolves frame) :
    grammar.Uses pattern := by
  cases offers with
  | rule _ known starts => exact .start known starts
  | closing closes =>
    simp only [closing?] at closes
    split at closes
    · rename_i closing _ _ _ known
      obtain ⟨rfl, _⟩ := Prod.mk.inj (Option.some.inj closes)
      cases stored : frame.resolved with
      | none => exact .follow known rfl
      | some pattern => exact .resolved (resolves pattern stored)
    · exact absurd closes (by simp)

theorem Offered.within {frame : Frame} {found : Found}
    (offered : Offered grammar position frame found) : found.result.Within (Text.byteLength text) := by
  obtain ⟨pattern, _, searched⟩ := offered
  exact Pattern.search_within pattern _ _ _ _ searched

theorem Offered.forward {frame : Frame} {found : Found}
    (offered : Offered grammar position frame found) (resolves : grammar.Resolves frame)
    (forward : grammar.SearchesForward) :
    position.cursor.offset ≤ found.result.whole.start := by
  obtain ⟨pattern, offers, searched⟩ := offered
  exact forward pattern (offers.uses resolves) text _ _ _ _ searched

end Candidate

end Highlighter
