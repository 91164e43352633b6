import Highlighter.Memo
import Highlighter.Proofs.Pattern.Literal
import Highlighter.ScopeTraits

set_option autoImplicit false

namespace Highlighter

theorem Table.get?_of_mem_keys {α : Type} {table : Table α} {key : String}
    (listed : key ∈ table.keys) : ∃ value, table.get? key = some value := by
  obtain ⟨entry, member, rfl⟩ := List.mem_map.mp listed
  refine Option.ne_none_iff_exists'.mp fun absent => ?_
  simpa using List.lookup_eq_none_iff.mp absent entry member

namespace Text

theorem afterLead?_eq_some_iff {lead cs rest : List Char} :
    afterLead? lead cs = some rest ↔ cs = lead ++ rest := by
  induction lead generalizing cs with
  | nil => simp [afterLead?]
  | cons l lead ih =>
    cases cs with
    | nil => simp [afterLead?]
    | cons c cs => simp [afterLead?.eq_3, ih, @eq_comm _ l]

theorem takeBytes?_append (lead rest : List Char) :
    takeBytes? (byteLength lead) (lead ++ rest) = some lead := by
  induction lead with
  | nil => exact takeBytes?.eq_1 rest
  | cons c lead ih =>
    have wide := c.utf8Size_pos
    obtain ⟨size, whole⟩ : ∃ size, byteLength (c :: lead) = size + 1 :=
      ⟨byteLength (c :: lead) - 1, by simp only [byteLength]; omega⟩
    have inner : size + 1 - c.utf8Size = byteLength lead := by
      rw [← whole, byteLength]
      omega
    have fits : c.utf8Size ≤ size + 1 := by
      rw [← whole, byteLength]
      omega
    rw [whole, List.cons_append, takeBytes?, if_pos fits, inner, ih]
    rfl

theorem eq_of_prefix_of_byteLength {a b : List Char} (stands : a <+: b)
    (same : byteLength a = byteLength b) : a = b := by
  obtain ⟨rest, rfl⟩ := stands
  cases rest with
  | nil => simp
  | cons c rest =>
    have wide := c.utf8Size_pos
    rw [byteLength_append, byteLength] at same
    omega

theorem slice?_lead {lead text : List Char} (stands : lead <+: text) :
    slice? text 0 (byteLength lead) = some lead := by
  obtain ⟨rest, rfl⟩ := stands
  have start : Cursor.at? (lead ++ rest) 0 = some (Cursor.first (lead ++ rest)) := by
    unfold Cursor.at? Cursor.forward?
    exact if_pos rfl
  simp only [slice?, start, Nat.zero_le, if_true]
  exact takeBytes?_append lead rest

end Text

namespace Regex

open Text (Cursor byteLength)

def Expr.anyOf : List Expr → Expr
  | [] => .ahead true .empty
  | [last] => last
  | first :: next :: rest => .alt first (anyOf (next :: rest))

variable {text : List Char}

theorem run_anyOf (origin : Cursor text) (call : Callee → Run text) (exprs : List Expr)
    (accept : State text → Option (State text)) (state : State text) :
    Expr.run origin call (.anyOf exprs) accept state =
      exprs.findSome? fun expr => Expr.run origin call expr accept state := by
  induction exprs with
  | nil => rfl
  | cons first rest ih =>
    cases rest with
    | nil =>
      rw [Expr.anyOf, List.findSome?_cons, List.findSome?_nil]
      cases Expr.run origin call first accept state <;> rfl
    | cons next rest =>
      rw [Expr.anyOf, Expr.run, ih, List.findSome?_cons (a := first)]
      cases Expr.run origin call first accept state <;> rfl

theorem groups_anyOf {exprs : List Expr} (bare : ∀ expr ∈ exprs, expr.groups = []) :
    (Expr.anyOf exprs).groups = [] := by
  induction exprs with
  | nil => rfl
  | cons first rest ih =>
    obtain ⟨here, others⟩ := List.forall_mem_cons.mp bare
    cases rest with
    | nil => exact here
    | cons next rest => rw [Expr.anyOf, Expr.groups, here, ih others, List.append_nil]

theorem after_of_afterText {wanted : List Char} {cursor next : Cursor text}
    (read : afterText? wanted cursor = some next) : cursor.after = wanted ++ next.after := by
  fun_induction afterText? wanted cursor with
  | case1 cursor =>
    obtain rfl := Option.some.inj read
    rfl
  | case2 cursor c rest d place step same ih =>
    rw [Cursor.after_of_next? step, ← beq_iff_eq.mp same, ih read]
    rfl
  | case3 => exact absurd read (by simp)
  | case4 => exact absurd read (by simp)

end Regex

namespace Languages

open Text (byteLength Cursor)

def Covers (key scope : String) : Prop :=
  scope = key ∨ key.toList ++ ['.'] <+: scope.toList

theorem lead?_append (key rest : List Char) : lead? (key ++ rest) key =
    match rest with
    | [] => some key
    | c :: _ => if c = '.' then some (key ++ ['.']) else none := by
  rw [lead?, Text.afterLead?_eq_some_iff.mpr rfl]
  cases rest with
  | nil => rfl
  | cons c rest =>
    by_cases dot : c = '.'
    · subst dot
      rfl
    · split <;> simp_all

theorem lead?_of_missing {scope key : List Char} (missing : ¬ key <+: scope) :
    lead? scope key = none := by
  have none : Text.afterLead? key scope = none := by
    by_contra goesOn
    obtain ⟨rest, here⟩ := Option.ne_none_iff_exists'.mp goesOn
    exact missing ⟨rest, (Text.afterLead?_eq_some_iff.mp here).symm⟩
  rw [lead?, none]

theorem lead?_eq_some_iff {scope key lead : List Char} : lead? scope key = some lead ↔
    scope = key ∧ lead = key ∨ key ++ ['.'] <+: scope ∧ lead = key ++ ['.'] := by
  by_cases stands : key <+: scope
  · obtain ⟨rest, rfl⟩ := stands
    rw [lead?_append, List.prefix_append_right_inj]
    cases rest with
    | nil => simp [eq_comm]
    | cons c rest =>
      by_cases dot : c = '.'
      · simp [dot, eq_comm]
      · simp [dot, Ne.symm dot]
  · rw [lead?_of_missing stands]
    refine iff_of_false nofun ?_
    rintro (⟨rfl, -⟩ | ⟨goesOn, -⟩)
    · exact stands (List.prefix_refl _)
    · exact stands ((List.prefix_append _ _).trans goesOn)

theorem dropEnd_lead {scope key lead : List Char} (plain : key.getLast? ≠ some '.')
    (leads : lead? scope key = some lead) : Text.dropEnd (· == '.') lead = key := by
  have kept : Text.dropEnd (· == '.') key = key := by
    rw [List.getLast?_eq_head?_reverse] at plain
    rw [Text.dropEnd]
    cases reversed : key.reverse with
    | nil => simpa using reversed.symm
    | cons c rest =>
      have other : c ≠ '.' := by simpa [reversed] using plain
      rw [List.dropWhile_cons_of_neg (by simpa using other), ← reversed, List.reverse_reverse]
  rcases lead?_eq_some_iff.mp leads with ⟨-, rfl⟩ | ⟨-, rfl⟩
  · exact kept
  · rw [Text.dropEnd] at kept ⊢
    simpa using kept

theorem isSome_lead?_iff {scope key : String} :
    (lead? scope.toList key.toList).isSome = true ↔ Covers key scope := by
  simp [Option.isSome_iff_exists, lead?_eq_some_iff, Covers, ← String.toList_inj, exists_or]

theorem listed_iff (a b : String) : (longer a b || a == b) = true ↔
    byteLength b.toList < byteLength a.toList ∨
      byteLength a.toList = byteLength b.toList ∧ a ≤ b := by
  simp only [longer, Bool.or_eq_true, decide_eq_true_eq, Bool.and_eq_true, beq_iff_eq]
  rw [le_iff_lt_or_eq]
  constructor
  · rintro ((less | ⟨same, before⟩) | rfl)
    · exact .inl less
    · exact .inr ⟨same, .inl before⟩
    · exact .inr ⟨rfl, .inr rfl⟩
  · rintro (less | ⟨same, before | rfl⟩)
    · exact .inl (.inl less)
    · exact .inl (.inr ⟨same, before⟩)
    · exact .inr rfl

theorem scopes_sorted (languages : Languages) :
    languages.scopes.Pairwise fun one other =>
      byteLength other.toList ≤ byteLength one.toList := by
  have sorted := @List.pairwise_mergeSort _ (fun a b : String => longer a b || a == b)
    (fun a b c first second => ?trans) (fun a b => ?total) languages.embedded.keys
  case trans =>
    rw [listed_iff] at first second ⊢
    rcases first with first | ⟨same, first⟩ <;> rcases second with second | ⟨same', second⟩
    · exact .inl (second.trans first)
    · exact .inl (same' ▸ first)
    · exact .inl (same ▸ second)
    · exact .inr ⟨same.trans same', first.trans second⟩
  case total =>
    rw [Bool.or_eq_true, listed_iff, listed_iff]
    rcases Nat.lt_trichotomy (byteLength a.toList) (byteLength b.toList) with less | same | more
    · exact .inr (.inl less)
    · exact (le_total a b).imp (.inr ⟨same, ·⟩) (.inr ⟨same.symm, ·⟩)
    · exact .inl (.inl more)
  refine sorted.imp fun {one other} listed => ?_
  rcases (listed_iff one other).mp listed with less | ⟨same, -⟩
  · exact less.le
  · exact same.ge

section

open Regex (Expr State)

def ending : Expr := .alt (.set (.char '.')) (.anchor .textEnd)

def searching (languages : Languages) : Expr :=
  .seq (.anchor .textStart)
    (.seq (.anyOf (languages.scopes.map fun key => .literal key.toList)) ending)

def searched? (languages : Languages) (scope : String) : Option (List Char) :=
  ((⟨languages.searching, []⟩ : Regex).search? (Cursor.first scope.toList)).bind fun found =>
    Text.slice? scope.toList found.whole.start found.whole.stop

variable {scope : List Char}

theorem run_ending (origin : Cursor scope) (call : Regex.Callee → Regex.Run scope)
    (state : State scope) : Expr.run origin call ending some state =
      match state.cursor.next? with
      | none => some state
      | some (c, next) => if c = '.' then some (state.goTo next) else none := by
  have dot (c : Char) : (Regex.CharSet.char '.').mem c = decide (c = '.') := by
    change (c == '.') = _
    rfl
  simp only [ending, Expr.run, Regex.afterSet?]
  cases step : state.cursor.next? with
  | none =>
    have last : state.cursor.isLast = true := List.isEmpty_iff.mpr (Regex.after_of_last step)
    simp [Regex.Anchor.holds, last]
  | some moved =>
    obtain ⟨c, next⟩ := moved
    have ongoing : state.cursor.isLast = false := by
      simp [Cursor.isLast, Cursor.after_of_next? step]
    simp only [dot, Regex.Anchor.holds, ongoing]
    by_cases same : c = '.' <;> simp [same]

theorem run_key (origin : Cursor scope) (call : Regex.Callee → Regex.Run scope) (key : List Char) :
    (Expr.run origin call (.literal key) (Expr.run origin call ending some)
        (State.start 0 (Cursor.first scope))).map (State.found (Cursor.first scope)) =
      (lead? scope key).map fun lead => ⟨⟨0, byteLength lead⟩, []⟩ := by
  rw [Regex.run_literal]
  cases read : Regex.afterText? key (State.start 0 (Cursor.first scope)).cursor with
  | none =>
    have missing : ¬ key <+: scope := Regex.not_prefix_of_afterText read
    rw [lead?_of_missing missing]
    rfl
  | some place =>
    have whole : scope = key ++ place.after := Regex.after_of_afterText read
    have far : place.offset = 0 + byteLength key := (Regex.prefix_of_afterText read).2
    rw [(congrArg (lead? · key) whole).trans (lead?_append key place.after), Option.bind_some,
      run_ending]
    have found (stop : Cursor scope) : State.found (Cursor.first scope)
        ((State.start 0 (Cursor.first scope)).goTo stop) = ⟨⟨0, stop.offset⟩, []⟩ := by
      simp [State.found, State.start, State.goTo, Cursor.first]
    change Option.map _ (match place.next? with | none => _ | some (c, next) => _) = _
    cases step : place.next? with
    | none =>
      rw [Regex.after_of_last step]
      simp [found, far]
    | some moved =>
      obtain ⟨c, next⟩ := moved
      rw [Cursor.after_of_next? step]
      by_cases dot : c = '.'
      · subst dot
        have length : next.offset = byteLength (key ++ ['.']) := by
          rw [Cursor.offset_of_next? step, far, Text.byteLength_append, byteLength, byteLength]
          omega
        exact congrArg some ((found next).trans (by rw [length]))
      · simp [dot]

variable (languages : Languages) (depth : Nat) (origin : Cursor scope)

theorem run_searching (place : Cursor scope) : ∃ call,
    (⟨languages.searching, []⟩ : Regex).matchAt? 0 depth origin place =
      (if place.isFirst then languages.scopes.findSome? fun key =>
        Expr.run origin call (.literal key.toList) (Expr.run origin call ending some)
          (State.start 0 place)
      else none).map (State.found place) := by
  obtain ⟨call, called⟩ : ∃ call, Regex.run ⟨languages.searching, []⟩ origin depth =
      Expr.run origin call := by
    cases depth <;> exact ⟨_, rfl⟩
  refine ⟨call, ?_⟩
  rw [Regex.matchAt?, called, searching, Expr.run, Expr.run, Expr.run, Regex.run_anyOf,
    List.findSome?_map]
  rfl

theorem matchAt_first : (⟨languages.searching, []⟩ : Regex).matchAt? 0 depth origin
      (Cursor.first scope) =
    (languages.scopes.findSome? fun key => lead? scope key.toList).map fun lead =>
      ⟨⟨0, byteLength lead⟩, []⟩ := by
  obtain ⟨call, run⟩ := run_searching languages depth origin (Cursor.first scope)
  have starts : (Cursor.first scope).isFirst = true := rfl
  rw [run, if_pos starts, List.map_findSome?, List.map_findSome?]
  exact congrArg (List.findSome? · _) (funext fun key => run_key origin call key.toList)

theorem matchAt_later {place : Cursor scope} (later : 0 < place.offset) :
    (⟨languages.searching, []⟩ : Regex).matchAt? 0 depth origin place = none := by
  obtain ⟨call, run⟩ := run_searching languages depth origin place
  have passed : place.isFirst = false := by
    obtain ⟨before, after, offset, joined, measured⟩ := place
    cases before with
    | nil => exact absurd measured later.ne'
    | cons c before => rfl
  rw [run, if_neg (by simp [passed])]
  rfl

theorem groupCount_searching : (⟨languages.searching, []⟩ : Regex).groupCount = 0 := by
  have bare : (Expr.anyOf (languages.scopes.map fun key => .literal key.toList)).groups = [] := by
    refine Regex.groups_anyOf fun expr member => ?_
    obtain ⟨key, _, rfl⟩ := List.mem_map.mp member
    exact (Regex.Expr.bare_of_isPlain (Regex.Expr.literal_isPlain key.toList)).1
  rw [Regex.groupCount, searching, Expr.groups, Expr.groups, bare]
  rfl

-- The search is over at the first place, since no later one is the start of the scope.
theorem search_first (scope : List Char) :
    (⟨languages.searching, []⟩ : Regex).search? (Cursor.first scope) =
      (languages.scopes.findSome? fun key => lead? scope key.toList).map fun lead =>
        ⟨⟨0, byteLength lead⟩, []⟩ := by
  rw [Regex.search?, groupCount_searching, Regex.firstMatch?, matchAt_first]
  split
  · rename_i here
    exact here.symm
  · rename_i missed
    rw [missed]
    split
    · rename_i c next step
      by_contra elsewhere
      obtain ⟨found, later⟩ := Option.ne_none_iff_exists'.mp elsewhere
      obtain ⟨place, passed, here⟩ := Regex.firstMatch_some _ next found later
      have moved := Cursor.offset_of_next? step
      have wide := c.utf8Size_pos
      rw [matchAt_later languages _ _ (by omega)] at here
      exact absurd here (by simp)
    · rfl

theorem searched?_eq (languages : Languages) (scope : String) : languages.searched? scope =
    languages.scopes.findSome? fun key => lead? scope.toList key.toList := by
  rw [searched?, search_first]
  cases leads : languages.scopes.findSome? fun key => lead? scope.toList key.toList with
  | none => rfl
  | some lead =>
    obtain ⟨key, _, here⟩ := List.exists_of_findSome?_eq_some leads
    have stands : lead <+: scope.toList := by
      rcases lead?_eq_some_iff.mp here with ⟨whole, rfl⟩ | ⟨stands, rfl⟩
      · exact whole ▸ List.prefix_refl _
      · exact stands
    exact Text.slice?_lead stands

end

instance (key scope : String) : Decidable (Covers key scope) :=
  inferInstanceAs (Decidable (_ ∨ _))

/-- The key covers the scope, and is longer than all others that do. -/
structure IsLongest (languages : Languages) (scope key : String) : Prop where
  listed : key ∈ languages.embedded.keys
  covers : Covers key scope
  longest : ∀ other ∈ languages.embedded.keys, Covers other scope →
    other = key ∨ byteLength other.toList < byteLength key.toList

namespace IsLongest

variable {languages : Languages} {scope key other : String}

theorem unique (one : languages.IsLongest scope key) (two : languages.IsLongest scope other) :
    key = other := by
  rcases one.longest other two.listed two.covers with same | less
  · exact same.symm
  · rcases two.longest key one.listed one.covers with same | more
    · exact same
    · exact absurd less more.asymm

theorem of_le (listed : key ∈ languages.embedded.keys) (covers : Covers key scope)
    (most : ∀ other ∈ languages.embedded.keys, Covers other scope →
      byteLength other.toList ≤ byteLength key.toList) : languages.IsLongest scope key := by
  have lead {key : String} (covers : Covers key scope) : key.toList <+: scope.toList := by
    rcases covers with rfl | stands
    · exact List.prefix_refl _
    · exact (List.prefix_append _ _).trans stands
  refine ⟨listed, covers, fun other listed' covers' => ?_⟩
  rcases (most other listed' covers').lt_or_eq with less | same
  · exact .inr less
  · refine .inl (String.toList_inj.mp ?_)
    rcases List.prefix_or_prefix_of_prefix (lead covers') (lead covers) with stands | stands
    · exact Text.eq_of_prefix_of_byteLength stands same
    · exact (Text.eq_of_prefix_of_byteLength stands same.symm).symm

end IsLongest

theorem mem_scopes {languages : Languages} {key : String} :
    key ∈ languages.scopes ↔ key ∈ languages.embedded.keys :=
  List.mem_mergeSort

theorem language_of_longest {languages : Languages} {scope : String} {lead : List Char}
    (plain : ∀ key ∈ languages.embedded.keys, key.toList.getLast? ≠ some '.')
    (found : languages.scopes.findSome? (fun key => lead? scope.toList key.toList) = some lead) :
    ∃ key id, languages.embedded.get? key = some id ∧ languages.IsLongest scope key ∧
      languages.language scope = id := by
  obtain ⟨before, key, after, whole, leads, passed⟩ := List.findSome?_eq_some_iff.mp found
  have listed : key ∈ languages.embedded.keys := mem_scopes.mp (by simp [whole])
  obtain ⟨id, known⟩ := Table.get?_of_mem_keys listed
  have dropped : String.ofList (Text.dropEnd (· == '.') lead) = key := by
    rw [dropEnd_lead (plain key listed) leads, String.ofList_toList]
  have covers : Covers key scope := isSome_lead?_iff.mp (by rw [leads]; rfl)
  refine ⟨key, id, known, .of_le listed covers ?_, ?_⟩
  · intro other member covers
    have sorted := languages.scopes_sorted
    rw [whole, List.pairwise_append, List.pairwise_cons] at sorted
    rw [← mem_scopes, whole, List.mem_append, List.mem_cons] at member
    rcases member with earlier | rfl | later
    · have none := passed other earlier
      rw [← isSome_lead?_iff, none] at covers
      exact nomatch covers
    · exact le_rfl
    · exact sorted.2.1.1 other later
  · rw [language, found]
    dsimp only
    rw [dropped, known, Option.getD_some]

/-- With keys that end in no dot, the language of a scope is that of the longest key that covers it,
or the main one if none does. -/
theorem language_longest (languages : Languages)
    (plain : ∀ key ∈ languages.embedded.keys, key.toList.getLast? ≠ some '.')
    (memo : Memo languages.traits) (scope : String) :
    let language := (memo.get scope).1.language
    language = ((languages.searched? scope).bind fun found =>
      languages.embedded.get? (String.ofList (Text.dropEnd (· == '.') found))).getD languages.main ∧
    ((∃ key id, languages.embedded.get? key = some id ∧ languages.IsLongest scope key ∧
        language = id) ∨
      (∀ key ∈ languages.embedded.keys, ¬ Covers key scope) ∧ language = languages.main) := by
  have value : (memo.get scope).1.language = languages.language scope := by
    rw [Memo.get_value]
    rfl
  dsimp only
  rw [value, searched?_eq]
  cases found : languages.scopes.findSome? fun key => lead? scope.toList key.toList with
  | none =>
    have main : languages.language scope = languages.main := by rw [language, found]
    refine ⟨main, .inr ⟨fun key listed covers => ?_, main⟩⟩
    have none := List.findSome?_eq_none_iff.mp found key (mem_scopes.mpr listed)
    rw [← isSome_lead?_iff, none] at covers
    exact nomatch covers
  | some lead =>
    refine ⟨?_, .inl (language_of_longest plain found)⟩
    rw [language, found]
    rfl

-- One of the keys goes on after another, and one of the scopes goes on with no dot.
def scripting : Languages := ⟨1, [("source.css", 2), ("source.js", 3), ("source.js.regexp", 4)]⟩

theorem language_longest_scripting :
    let memo := ((Memo.empty scripting.traits).get "source.js.regex").2
    (memo.get "source.js.regexp.x").1.language = 4 ∧ (memo.get "source.js.regex").1.language = 3 ∧
      (memo.get "source.jsx").1.language = 1 := by
  intro memo
  have plain : ∀ key ∈ scripting.embedded.keys, key.toList.getLast? ≠ some '.' := by decide
  have found {scope key : String} {id : UInt8} (longest : scripting.IsLongest scope key)
      (known : scripting.embedded.get? key = some id) : (memo.get scope).1.language = id := by
    obtain ⟨-, ⟨other, given, here, longest', same⟩ | ⟨uncovered, -⟩⟩ :=
      language_longest scripting plain memo scope
    · obtain rfl := longest'.unique longest
      exact same.trans (Option.some.inj (here.symm.trans known))
    · exact absurd longest.covers (uncovered key longest.listed)
  have regexp : scripting.IsLongest "source.js.regexp.x" "source.js.regexp" := by
    constructor <;> decide
  have script : scripting.IsLongest "source.js.regex" "source.js" := by constructor <;> decide
  refine ⟨found regexp rfl, found script rfl, ?_⟩
  have uncovered : ∀ key ∈ scripting.embedded.keys, ¬ Covers key "source.jsx" := by decide
  obtain ⟨-, ⟨key, _, _, longest, _⟩ | ⟨-, main⟩⟩ :=
    language_longest scripting plain memo "source.jsx"
  · exact absurd longest.covers (uncovered key longest.listed)
  · exact main

end Languages

end Highlighter
