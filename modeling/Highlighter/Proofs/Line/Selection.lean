import Highlighter.Proofs.Grammar.Scopes
import Highlighter.Proofs.Line.Candidate
import Mathlib

set_option autoImplicit false

namespace Highlighter

open Regex (Match)

structure Contender where
  priority : Option Priority
  injection : Nat
  place : Nat
  target : Target
  pattern : Pattern

namespace Contender

def turnOf : Option Priority → Nat
  | some .low => 0
  | none => 1
  | some .normal => 2
  | some .high => 3

def turn (contender : Contender) : Nat := turnOf contender.priority

def standing (contender : Contender) : ℕ ×ₗ ℕ ×ₗ ℕ :=
  toLex (contender.turn, toLex (contender.injection, contender.place))

def rank (contender : Contender) (found : Match) : ℕ ×ₗ ℕ ×ₗ ℕ ×ₗ ℕ :=
  toLex (found.whole.start, contender.standing)

def candidate (contender : Contender) : Target × Pattern := (contender.target, contender.pattern)

variable {text : List Char}

def match? (contender : Contender) (position : Position text) : Option Match :=
  contender.pattern.search? position.cursor position.onFirstLine
    (position.anchor == some position.cursor.offset)

def ofList (priority : Option Priority) (injection : Nat) (list : List (Target × Pattern)) :
    List Contender :=
  list.zipIdx.map fun ((target, pattern), place) => ⟨priority, injection, place, target, pattern⟩

theorem rank_le_iff (a b : Contender) (found other : Match) :
    a.rank found ≤ b.rank other ↔ found.whole.start < other.whole.start ∨
      found.whole.start = other.whole.start ∧ a.standing ≤ b.standing :=
  Prod.Lex.toLex_le_toLex

theorem standing_lt_of_turn {a b : Contender} (before : a.turn < b.turn) :
    a.standing < b.standing :=
  Prod.Lex.toLex_lt_toLex.mpr (.inl before)

theorem turn_le_of_standing {a b : Contender} (before : a.standing ≤ b.standing) :
    a.turn ≤ b.turn := by
  rcases Prod.Lex.toLex_le_toLex.mp before with less | ⟨same, -⟩
  · exact less.le
  · exact same.le

theorem turnOf_le {a b : Priority} (le : a.value ≤ b.value) :
    turnOf (some a) ≤ turnOf (some b) := by
  revert le
  cases a <;> cases b <;> decide

theorem turnOf_low (priority : Priority) :
    if priority = .low then turnOf (some priority) < turnOf none
    else turnOf none < turnOf (some priority) := by
  cases priority <;> decide

theorem candidates_ofList (priority : Option Priority) (injection : Nat)
    (list : List (Target × Pattern)) : (ofList priority injection list).map candidate = list := by
  simp [ofList, candidate, Function.comp_def]

theorem start_le_of_rank_le {a b : Contender} {found other : Match}
    (le : a.rank found ≤ b.rank other) : found.whole.start ≤ other.whole.start := by
  rcases (rank_le_iff a b found other).mp le with less | ⟨same, -⟩
  · exact less.le
  · exact same.le

theorem rank_le_of_standing {a b : Contender} {found other : Match}
    (start : found.whole.start ≤ other.whole.start) (standing : a.standing ≤ b.standing) :
    a.rank found ≤ b.rank other := by
  refine (rank_le_iff a b found other).mpr ?_
  rcases start.lt_or_eq with less | same
  · exact .inl less
  · exact .inr ⟨same, standing⟩

theorem of_mem_ofList {priority : Option Priority} {injection : Nat}
    {list : List (Target × Pattern)} {contender : Contender}
    (member : contender ∈ ofList priority injection list) :
    contender.priority = priority ∧ contender.injection = injection := by
  obtain ⟨_, _, rfl⟩ := List.mem_map.mp member
  exact ⟨rfl, rfl⟩

def Ordered (contenders : List Contender) : Prop :=
  contenders.Pairwise fun a b => a.standing < b.standing

theorem ofList_ordered (priority : Option Priority) (injection : Nat)
    (list : List (Target × Pattern)) : Ordered (ofList priority injection list) := by
  refine List.pairwise_iff_getElem.mpr fun i j _ _ before => ?_
  simp only [ofList, List.getElem_map, List.getElem_zipIdx, standing, turn]
  refine Prod.Lex.toLex_lt_toLex.mpr (.inr ⟨rfl, Prod.Lex.toLex_lt_toLex.mpr (.inr ⟨rfl, ?_⟩)⟩)
  dsimp only
  omega

def Least (position : Position text) (contenders : List Contender) :
    Option (Contender × Match) → Prop
  | none => ∀ contender ∈ contenders, contender.match? position = none
  | some (best, found) => best ∈ contenders ∧ best.match? position = some found ∧
    ∀ other ∈ contenders, ∀ result, other.match? position = some result →
      best.rank found ≤ other.rank result

def earlier : Option (Contender × Match) → Option (Contender × Match) → Option (Contender × Match)
  | none, second => second
  | first, none => first
  | some (a, found), some (b, other) =>
    if other.whole.start < found.whole.start then some (b, other) else some (a, found)

theorem earlier_some (choice : Option (Contender × Match)) (found : Contender × Match) :
    earlier choice (some found) =
      if choice.all fun other => found.2.whole.start < other.2.whole.start then some found
      else choice := by
  cases choice <;> simp [earlier]

def Forward (position : Position text) (contenders : List Contender) : Prop :=
  ∀ contender ∈ contenders, ∀ found, contender.match? position = some found →
    position.cursor.offset ≤ found.whole.start

namespace Least

variable {position : Position text} {first second : List Contender}

theorem single (position : Position text) (contender : Contender) :
    Least position [contender] ((contender.match? position).map (contender, ·)) := by
  cases searched : contender.match? position with
  | none =>
    intro other member
    exact List.mem_singleton.mp member ▸ searched
  | some found =>
    refine ⟨List.mem_singleton.mpr rfl, searched, fun other member result here => ?_⟩
    obtain rfl := List.mem_singleton.mp member
    obtain rfl := Option.some.inj (searched.symm.trans here)
    exact le_rfl

theorem left {a : Contender} {found : Match} (least : Least position first (some (a, found)))
    (worse : ∀ c ∈ second, ∀ result, c.match? position = some result → a.rank found ≤ c.rank result) :
    Least position (first ++ second) (some (a, found)) := by
  obtain ⟨member, searched, best⟩ := least
  refine ⟨List.mem_append_left _ member, searched, fun c inside result here => ?_⟩
  exact (List.mem_append.mp inside).elim (best c · result here) (worse c · result here)

theorem right {b : Contender} {found : Match} (least : Least position second (some (b, found)))
    (worse : ∀ c ∈ first, ∀ result, c.match? position = some result → b.rank found ≤ c.rank result) :
    Least position (first ++ second) (some (b, found)) := by
  obtain ⟨member, searched, best⟩ := least
  refine ⟨List.mem_append_right _ member, searched, fun c inside result here => ?_⟩
  exact (List.mem_append.mp inside).elim (worse c · result here) (best c · result here)

theorem none_append (one : Least position first none) (two : Least position second none) :
    Least position (first ++ second) none := by
  intro contender member
  exact (List.mem_append.mp member).elim (one contender) (two contender)

theorem left_of_none {found : Contender × Match} (one : Least position first (some found))
    (two : Least position second none) : Least position (first ++ second) (some found) :=
  one.left fun c member _ here => nomatch (two c member).symm.trans here

theorem right_of_none {found : Contender × Match} (one : Least position first none)
    (two : Least position second (some found)) : Least position (first ++ second) (some found) :=
  two.right fun c member _ here => nomatch (one c member).symm.trans here

theorem append {x y : Option (Contender × Match)} (one : Least position first x)
    (two : Least position second y)
    (ordered : ∀ a ∈ first, ∀ b ∈ second, a.standing < b.standing) :
    Least position (first ++ second) (earlier x y) := by
  match x, y with
  | none, none => exact one.none_append two
  | none, some _ => exact one.right_of_none two
  | some _, none => exact one.left_of_none two
  | some (a, found), some (b, other) =>
    rw [earlier]
    split
    · rename_i starts
      refine two.right fun c before result here => ?_
      have later := start_le_of_rank_le (one.2.2 c before result here)
      exact (rank_le_iff _ _ _ _).mpr (.inl (starts.trans_le later))
    · rename_i starts
      refine one.left fun c behind result here => ?_
      have later := start_le_of_rank_le (two.2.2 c behind result here)
      exact rank_le_of_standing ((Nat.le_of_not_lt starts).trans later)
        (ordered a one.1 c behind).le

theorem settled {a : Contender} {found : Match} (least : Least position first (some (a, found)))
    (here : found.whole.start = position.cursor.offset) (forward : Forward position second)
    (ordered : ∀ a ∈ first, ∀ b ∈ second, a.standing < b.standing) :
    Least position (first ++ second) (some (a, found)) :=
  least.left fun c behind result searched =>
    rank_le_of_standing (here.trans_le (forward c behind result searched))
      (ordered a least.1 c behind).le

end Least

end Contender

namespace Pattern

variable {text : List Char} {α β : Type}

theorem scanFrom_map (f : α → β) (cursor : Text.Cursor text) (firstLine onAnchor : Bool)
    (best : Option (α × Match)) (patterns : List (α × Pattern)) :
    scanFrom cursor firstLine onAnchor (best.map (Prod.map f id)) (patterns.map (Prod.map f id)) =
      (scanFrom cursor firstLine onAnchor best patterns).map (Prod.map f id) := by
  induction patterns generalizing best with
  | nil => rfl
  | cons head rest ih =>
    obtain ⟨item, pattern⟩ := head
    have kept : (best.map (Prod.map f id)).map (·.2) = best.map (·.2) := by
      cases best <;> rfl
    simp only [List.map_cons, Prod.map_apply, id, scanFrom, kept]
    split
    · exact ih best
    · rename_i found _
      split
      · split
        · rfl
        · exact ih (some (item, found))
      · exact ih best

end Pattern

namespace Candidate

open Contender

variable {text : List Char} {position : Position text}

theorem scanFrom_least (before behind : List Contender) (ordered : Ordered (before ++ behind))
    (forward : Forward position behind) (choice : Option (Contender × Match))
    (least : Least position before choice) :
    Least position (before ++ behind)
      (Pattern.scanFrom position.cursor position.onFirstLine
        (position.anchor == some position.cursor.offset) choice
        (behind.map fun contender => (contender, contender.pattern))) := by
  induction behind generalizing before choice with
  | nil =>
    rw [List.append_nil]
    exact least
  | cons contender rest ih =>
    have next : before ++ contender :: rest = (before ++ [contender]) ++ rest := by simp
    rw [next] at ordered ⊢
    have later : Forward position rest := fun other member =>
      forward other (List.mem_cons_of_mem _ member)
    obtain ⟨inner, -, apart⟩ := List.pairwise_append.mp ordered
    have joined := least.append (Least.single position contender)
      (List.pairwise_append.mp inner).2.2
    have step : contender.match? position = contender.pattern.search? position.cursor
      position.onFirstLine (position.anchor == some position.cursor.offset) := rfl
    simp only [List.map_cons, Pattern.scanFrom]
    cases searched : contender.match? position with
    | none =>
      rw [← step, searched]
      refine ih _ ordered later choice ?_
      cases choice <;> simpa [searched, earlier] using joined
    | some found =>
      rw [← step, searched]
      dsimp only
      rw [searched] at joined
      have beats : Pattern.beats found (choice.map (·.2)) =
          choice.all fun other => found.whole.start < other.2.whole.start := by
        cases choice <;> rfl
      rw [Option.map_some, earlier_some, ← beats] at joined
      split
      · rename_i better
        rw [if_pos better] at joined
        split
        · rename_i here
          exact joined.settled here later apart
        · exact ih _ ordered later _ joined
      · rename_i worse
        rw [if_neg worse] at joined
        exact ih _ ordered later choice joined

def foundOf (choice : Contender × Match) : Found := ⟨choice.1.target, choice.2⟩

theorem scan_least (contenders : List Contender) (ordered : Ordered contenders)
    (forward : Forward position contenders) :
    ∃ choice, Least position contenders choice ∧
      scan position (contenders.map candidate) = choice.map foundOf := by
  have least := scanFrom_least [] contenders ordered forward none
    (fun _ => nofun)
  refine ⟨_, least, ?_⟩
  have named : contenders.map candidate =
      (contenders.map fun contender => (contender, contender.pattern)).map
        (Prod.map Contender.target id) := by
    simp [candidate]
  rw [scan, Pattern.scan, named]
  have mapped := Pattern.scanFrom_map Contender.target position.cursor position.onFirstLine
    (position.anchor == some position.cursor.offset) none
    (contenders.map fun contender => (contender, contender.pattern))
  rw [Option.map_none] at mapped
  rw [mapped, Option.map_map]
  rfl

variable (grammar : Grammar) (scopes : List String)

def injectedAt (injection : Injection × Nat) : List Contender :=
  if (injection.1.alternative.rank? scopes).isSome then
    ofList (some injection.1.alternative.priority) injection.2 (injected grammar injection.1)
  else []

def answerOf (choice : Contender × Match) : Found × Option Priority :=
  (foundOf choice, choice.1.priority)

theorem bestInjected_least (injections : List Injection) (next : Nat) (before : List Contender)
    (ordered : Ordered (before ++ (injections.zipIdx next).flatMap (injectedAt grammar scopes)))
    (forward : Forward position ((injections.zipIdx next).flatMap (injectedAt grammar scopes)))
    (choice : Option (Contender × Match)) (least : Least position before choice)
    (best : Option (Found × Priority)) (same : best.map (Prod.map id some) = choice.map answerOf) :
    ∃ last, Least position
        (before ++ (injections.zipIdx next).flatMap (injectedAt grammar scopes)) last ∧
      (bestInjected grammar position scopes best injections).map (Prod.map id some) =
        last.map answerOf := by
  induction injections generalizing next before choice best with
  | nil => exact ⟨choice, by simpa using least, same⟩
  | cons injection rest ih =>
    rw [List.zipIdx_cons, List.flatMap_cons] at ordered forward ⊢
    rw [← List.append_assoc] at ordered ⊢
    have later : Forward position ((rest.zipIdx (next + 1)).flatMap (injectedAt grammar scopes)) :=
      fun other member => forward other (List.mem_append_right _ member)
    obtain ⟨inner, -, apart⟩ := List.pairwise_append.mp ordered
    unfold bestInjected
    by_cases met : (injection.alternative.rank? scopes).isNone
    · have nothing : injectedAt grammar scopes (injection, next) = [] := by
        simp [injectedAt, Option.isNone_iff_eq_none.mp met]
      rw [if_pos met]
      rw [nothing, List.append_nil] at ordered ⊢
      exact ih (next + 1) before ordered later choice least best same
    · have listed : injectedAt grammar scopes (injection, next) =
          ofList (some injection.alternative.priority) next (injected grammar injection) := by
        unfold injectedAt
        rw [if_pos (Option.isSome_iff_ne_none.mpr fun none => met (Option.isNone_iff_eq_none.mpr none))]
      rw [if_neg met]
      have onward : Forward position (injectedAt grammar scopes (injection, next)) :=
        fun other member => forward other (List.mem_append_left _ member)
      obtain ⟨found, leastHere, scanned⟩ := scan_least (injectedAt grammar scopes (injection, next))
        (List.pairwise_append.mp inner).2.1 onward
      have joined := least.append leastHere (List.pairwise_append.mp inner).2.2
      rw [listed, candidates_ofList] at scanned
      rw [scanned]
      cases found with
      | none =>
        refine ih (next + 1) _ ordered later choice ?_ best same
        cases choice <;> simpa [earlier] using joined
      | some found =>
        have priority : found.1.priority = some injection.alternative.priority :=
          (of_mem_ofList (listed ▸ leastHere.1)).1
        have named : Option.map (Prod.map id some)
            (some (foundOf found, injection.alternative.priority)) =
              Option.map answerOf (some found) := by
          simp [answerOf, priority]
        have first : (choice.all fun other => found.2.whole.start < other.2.whole.start) =
            best.all fun answer => startsBefore (foundOf found) answer.1.result := by
          cases choice with
          | none =>
            obtain rfl := Option.map_eq_none_iff.mp same
            rfl
          | some other =>
            obtain ⟨answer, rfl, alike⟩ := Option.map_eq_some_iff.mp same
            have result : answer.1.result = other.2 := congrArg (·.1.result) alike
            simp [startsBefore, foundOf, result]
        rw [earlier_some] at joined
        dsimp only [Option.map_some]
        -- Among injections only a match that starts earlier takes the place of one found before.
        split
        · rename_i better
          rw [if_pos (first.trans better)] at joined
          split
          · rename_i here
            exact ⟨some found, joined.settled here later apart, named⟩
          · exact ih (next + 1) _ ordered later _ joined _ named
        · rename_i worse
          rw [if_neg fun all => worse (first.symm.trans all)] at joined
          exact ih (next + 1) _ ordered later choice joined best same

def contenders (stack : Stack) : List Contender :=
  ofList none 0 (own grammar stack.top) ++
    grammar.graph.injections.zipIdx.flatMap (injectedAt grammar stack.contentScopes.names)

def ByPriority (injections : List Injection) : Prop :=
  injections.Pairwise fun a b => a.alternative.priority.value ≤ b.alternative.priority.value

theorem of_mem_injectedAt {injection : Injection × Nat} {contender : Contender}
    (member : contender ∈ injectedAt grammar scopes injection) :
    contender.priority = some injection.1.alternative.priority ∧
      contender.injection = injection.2 := by
  unfold injectedAt at member
  split at member
  · exact of_mem_ofList member
  · exact absurd member List.not_mem_nil

theorem standing_of_injections {a b : Contender} {first second : Injection × Nat}
    (one : a ∈ injectedAt grammar scopes first) (two : b ∈ injectedAt grammar scopes second)
    (sorted : first.1.alternative.priority.value ≤ second.1.alternative.priority.value)
    (before : first.2 < second.2) : a.standing < b.standing := by
  obtain ⟨priority, place⟩ := of_mem_injectedAt grammar scopes one
  obtain ⟨priority', place'⟩ := of_mem_injectedAt grammar scopes two
  have turns : a.turn ≤ b.turn := by
    unfold turn
    rw [priority, priority']
    exact turnOf_le sorted
  rcases turns.lt_or_eq with less | same
  · exact standing_lt_of_turn less
  · refine Prod.Lex.toLex_lt_toLex.mpr (.inr ⟨same, Prod.Lex.toLex_lt_toLex.mpr (.inl ?_)⟩)
    dsimp only
    omega

theorem injected_ordered (injections : List Injection) (sorted : ByPriority injections) :
    Ordered (injections.zipIdx.flatMap (injectedAt grammar scopes)) := by
  refine List.pairwise_flatMap.mpr ⟨fun injection _ => ?_, ?_⟩
  · unfold injectedAt
    split
    · exact ofList_ordered _ _ _
    · exact .nil
  · refine List.pairwise_iff_getElem.mpr fun i j inside inside' before a first b second => ?_
    have size : injections.zipIdx.length = injections.length := List.length_zipIdx
    have le := List.pairwise_iff_getElem.mp sorted i j (size ▸ inside) (size ▸ inside') before
    refine standing_of_injections grammar scopes first second ?_ ?_
    · simpa using le
    · simpa using before

theorem prefer_least {owned others : List Contender} {own other : Option (Contender × Match)}
    {injected : Option (Found × Priority)} (least : Least position owned own)
    (least' : Least position others other)
    (same : injected.map (Prod.map id some) = other.map answerOf)
    (inside : ∀ contender ∈ owned, contender.priority = none) :
    ∃ choice, Least position (owned ++ others) choice ∧
      prefer (own.map foundOf) injected = choice.map foundOf := by
  match own, other, injected, same with
  | none, none, none, _ => exact ⟨none, least.none_append least', rfl⟩
  | some _, none, none, _ => exact ⟨_, least.left_of_none least', rfl⟩
  | none, some _, some _, same =>
    exact ⟨_, least.right_of_none least', congrArg (·.map Prod.fst) same⟩
  | some (a, found), some (b, result), some (answer, priority), same =>
    obtain ⟨rfl, named⟩ : answer = foundOf (b, result) ∧ some priority = b.priority :=
      Prod.mk.inj (Option.some.inj same)
    have ownTurn (c : Contender) (member : c ∈ owned) : c.turn = turnOf none :=
      congrArg turnOf (inside c member)
    have otherTurn : b.turn = turnOf (some priority) := congrArg turnOf named.symm
    have low := turnOf_low priority
    simp only [Option.map_some, prefer, startsBefore, foundOf, Bool.or_eq_true, Bool.and_eq_true,
      decide_eq_true_eq, beq_iff_eq]
    split
    · rename_i better
      refine ⟨some (b, result), least'.right fun c member third here => ?_, rfl⟩
      have later := start_le_of_rank_le (least.2.2 c member third here)
      rcases better with starts | ⟨rfl, starts⟩
      · exact (rank_le_iff _ _ _ _).mpr (.inl (starts.trans_le later))
      · refine rank_le_of_standing (starts.trans_le later) (standing_lt_of_turn ?_).le
        rw [otherTurn, ownTurn c member]
        exact low
    · rename_i worse
      rw [not_or, not_and, Nat.not_lt] at worse
      refine ⟨some (a, found), least.left fun c member third here => ?_, rfl⟩
      have le := least'.2.2 c member third here
      have later := start_le_of_rank_le le
      refine (rank_le_iff _ _ _ _).mpr ?_
      rcases (worse.1.trans later).lt_or_eq with starts | starts
      · exact .inl starts
      · refine .inr ⟨starts, (standing_lt_of_turn ?_).le⟩
        have together : result.whole.start = third.whole.start := by omega
        have behind : ¬ priority = .low := fun low => worse.2 low (together.trans starts.symm)
        rw [if_neg behind, ← otherTurn] at low
        rcases (rank_le_iff _ _ _ _).mp le with earlier | ⟨-, standing⟩
        · omega
        · exact (ownTurn a least.1).trans_lt (low.trans_le (turn_le_of_standing standing))

theorem best_chosen (stack : Stack) (sorted : ByPriority grammar.graph.injections)
    (forward : Forward position (contenders grammar stack)) :
    ∃ choice, Least position (contenders grammar stack) choice ∧
      best? grammar position stack = choice.map foundOf := by
  have ofOwn : Forward position (ofList none 0 (own grammar stack.top)) := fun contender member =>
    forward contender (List.mem_append_left _ member)
  obtain ⟨own, least, scanned⟩ := scan_least _ (ofList_ordered none 0 _) ofOwn
  rw [candidates_ofList] at scanned
  obtain ⟨injected, least', answered⟩ := bestInjected_least grammar stack.contentScopes.names
    grammar.graph.injections 0 [] (injected_ordered grammar _ _ sorted)
    (fun contender member => forward contender (List.mem_append_right _ member)) none
    (fun _ => nofun) none rfl
  obtain ⟨choice, chosen, preferred⟩ := prefer_least least least' answered
    fun contender member => (of_mem_ofList member).1
  exact ⟨choice, chosen, (congrArg (prefer · _) scanned).trans preferred⟩

theorem byPriority_sorted (injections : List Injection) :
    ByPriority (Compile.byPriority injections) := by
  have priority {a : Injection} {wanted : Priority} (member : a ∈ injections.filter
      fun injection => injection.alternative.priority == wanted) : a.alternative.priority = wanted :=
    eq_of_beq (List.mem_filter.mp member).2
  have alike (wanted : Priority) : ByPriority (injections.filter fun injection =>
      injection.alternative.priority == wanted) :=
    List.pairwise_of_forall_mem_list fun a first b second => by rw [priority first, priority second]
  refine List.pairwise_append.mpr ⟨List.pairwise_append.mpr ⟨alike .low, alike .normal, ?_⟩,
    alike .high, ?_⟩
  · intro a first b second
    rw [priority first, priority second]
    decide
  · intro a first b second
    rw [priority second]
    cases a.alternative.priority <;> decide

theorem compile_byPriority (library : Library) :
    ByPriority (RuleGraph.compile library).injections :=
  byPriority_sorted _

theorem contenders_distinct (stack : Stack) (sorted : ByPriority grammar.graph.injections)
    {a b : Contender} (first : a ∈ contenders grammar stack) (second : b ∈ contenders grammar stack)
    (same : a.standing = b.standing) : a = b := by
  have distinct {list : List Contender} (ordered : Ordered list) :
      (list.map standing).Nodup :=
    List.pairwise_map.mpr (ordered.imp fun before => before.ne)
  refine List.inj_on_of_nodup_map ?_ first second same
  rw [contenders, List.map_append]
  refine List.nodup_append.mpr ⟨distinct (ofList_ordered _ _ _),
    distinct (injected_ordered grammar _ _ sorted), ?_⟩
  intro x own y injected
  obtain ⟨c, member, rfl⟩ := List.mem_map.mp own
  obtain ⟨d, member', rfl⟩ := List.mem_map.mp injected
  obtain ⟨injection, -, listed⟩ := List.mem_flatMap.mp member'
  have priority := (of_mem_injectedAt grammar _ listed).1
  have turns : c.turn ≠ d.turn := by
    unfold turn
    rw [(of_mem_ofList member).1, priority]
    cases injection.1.alternative.priority <;> decide
  exact fun alike => turns (congrArg (·.1) (toLex.injective alike))

/-- Nothing is found just when no contender matches. Otherwise it is the match of the contender with
the least rank: the match that starts first, and among those that start at one place the one whose
contender stands first. That is what searching with every contender gives, so it changes nothing that
a search ends at a match right where it began. -/
theorem best_least (library : Library) (grammar : Grammar)
    (compiled : grammar.graph = RuleGraph.compile library) {text : List Char}
    (position : Position text) (stack : Stack)
    (forward : Forward position (contenders grammar stack)) :
    (best? grammar position stack = none ↔
      ∀ contender ∈ contenders grammar stack, contender.match? position = none) ∧
    ∀ found, best? grammar position stack = some found ↔
      ∃ best ∈ contenders grammar stack, best.target = found.target ∧
        best.match? position = some found.result ∧
        ∀ other ∈ contenders grammar stack, ∀ result, other.match? position = some result →
          best.rank found.result ≤ other.rank result := by
  have sorted : ByPriority grammar.graph.injections := compiled ▸ compile_byPriority library
  obtain ⟨choice, least, same⟩ := best_chosen grammar stack sorted forward
  rw [same]
  cases choice with
  | none =>
    refine ⟨iff_of_true rfl least, fun found => ⟨nofun, ?_⟩⟩
    rintro ⟨best, member, -, searched, -⟩
    exact nomatch (least best member).symm.trans searched
  | some chosen =>
    obtain ⟨first, result⟩ := chosen
    obtain ⟨member, searched, best⟩ := least
    refine ⟨iff_of_false nofun fun nothing => ?_, fun found => ⟨?_, ?_⟩⟩
    · exact nomatch (nothing first member).symm.trans searched
    · intro taken
      obtain rfl := Option.some.inj taken
      exact ⟨first, member, rfl, searched, best⟩
    · rintro ⟨other, inside, target, here, least⟩
      have rank := le_antisymm (best other inside _ here) (least first member _ searched)
      obtain ⟨-, standing⟩ := Prod.mk.inj (toLex.injective rank)
      obtain rfl := contenders_distinct grammar stack sorted member inside standing
      obtain ⟨_, _⟩ := found
      obtain rfl := Option.some.inj (searched.symm.trans here)
      obtain rfl := target
      rfl

theorem contenders_forward (searches : grammar.SearchesForward) (position : Position text)
    (stack : Stack) (resolves : grammar.Resolves stack.top) :
    Forward position (contenders grammar stack) := by
  intro contender member found searched
  have offered : Offers grammar stack.top contender.target contender.pattern := by
    rcases List.mem_append.mp member with own | injected
    · have listed := List.mem_map_of_mem (f := candidate) own
      rw [candidates_ofList] at listed
      exact own_offered grammar stack.top _ _ listed
    · obtain ⟨⟨injection, index⟩, indexed, listed⟩ := List.mem_flatMap.mp injected
      have injects := List.fst_mem_of_mem_zipIdx indexed
      unfold injectedAt at listed
      split at listed
      · have inner := List.mem_map_of_mem (f := candidate) listed
        rw [candidates_ofList] at inner
        exact injected_offered grammar stack.top injection injects _ _ inner
      · exact absurd listed List.not_mem_nil
  exact searches _ (offered.uses resolves) text _ _ _ _ searched

end Candidate

-- A rule and three injections, of which the second has low priority and the last high priority.
def Library.injecting : Library :=
  let word (name pattern : String) : RuleDecl :=
    ⟨none, some name, none, some pattern, none, none, none, none, none, none, none, none, none, false⟩
  ⟨⟨some "t", none, [word "a" "y"], [],
    [("t", word "b" "y"), ("L:t", word "c" "y"), ("R:t", word "d" "x|y")], none, [], [], none⟩,
    Repository.empty⟩

def Grammar.injecting : Grammar :=
  ofGraph Library.injecting Configuration.default (RuleGraph.compile Library.injecting)

namespace Candidate

open Contender

def onY : Position ['y'] := ⟨Text.Cursor.first _, true, none⟩

theorem injecting_contenders :
    (contenders Grammar.injecting Grammar.injecting.firstStack).map
      (fun contender => (contender.target, (contender.match? onY).isSome)) =
        [(.rule 1, true), (.rule 3, true), (.rule 2, true), (.rule 4, true)] := by
  cbv

theorem injecting_best : best? Grammar.injecting onY Grammar.injecting.firstStack =
    some ⟨.rule 3, ⟨⟨0, 1⟩, []⟩⟩ := by
  cbv

theorem injecting_forward :
    Forward onY (contenders Grammar.injecting Grammar.injecting.firstStack) :=
  contenders_forward Grammar.injecting
    (Grammar.injecting.searchesForward_of_isFixed (by cbv)) onY _ (fun _ => nofun)

theorem best_least_injecting :
    (contenders Grammar.injecting Grammar.injecting.firstStack).map
      (fun contender => (contender.target, (contender.match? onY).isSome)) =
        [(.rule 1, true), (.rule 3, true), (.rule 2, true), (.rule 4, true)] ∧
    Forward onY (contenders Grammar.injecting Grammar.injecting.firstStack) ∧
    ∃ best ∈ contenders Grammar.injecting Grammar.injecting.firstStack,
      best.target = .rule 3 ∧ best.match? onY = some ⟨⟨0, 1⟩, []⟩ ∧
        ∀ other ∈ contenders Grammar.injecting Grammar.injecting.firstStack,
          ∀ result, other.match? onY = some result →
            best.rank ⟨⟨0, 1⟩, []⟩ ≤ other.rank result :=
  ⟨injecting_contenders, injecting_forward,
    ((best_least Library.injecting Grammar.injecting rfl onY _ injecting_forward).2 _).mp
      injecting_best⟩

end Candidate

end Highlighter
