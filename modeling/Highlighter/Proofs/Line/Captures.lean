import Highlighter.Proofs.Line.Packing

set_option autoImplicit false

namespace Highlighter

open Regex (Match Region)

namespace Regex

def Region.Holds (region : Region) (byte : Nat) : Prop := region.start ≤ byte ∧ byte < region.stop

instance (region : Region) (byte : Nat) : Decidable (region.Holds byte) :=
  inferInstanceAs (Decidable (_ ∧ _))

def Region.Precedes (first second : Region) : Prop :=
  (first.start ≤ second.start ∧ second.stop ≤ first.stop) ∨ first.stop ≤ second.start

structure Match.Nested (found : Match) : Prop where
  ordered : found.whole.start ≤ found.whole.stop
  inside : ∀ region, some region ∈ found.groups →
    found.whole.start ≤ region.start ∧ region.start ≤ region.stop ∧
      region.stop ≤ found.whole.stop
  precede : found.groups.Pairwise fun first second =>
    ∀ x ∈ first, ∀ y ∈ second, Region.Precedes x y

theorem Match.nested_of_group {whole region : Region} (before : whole.start ≤ region.start)
    (ordered : region.start ≤ region.stop) (behind : region.stop ≤ whole.stop) :
    Match.Nested ⟨whole, [some region]⟩ where
  ordered := before.trans (ordered.trans behind)
  inside := by
    intro other member
    obtain rfl := Option.some.inj (List.mem_singleton.mp member)
    exact ⟨before, ordered, behind⟩
  precede := List.pairwise_singleton _ _

end Regex

def Token.holds (token : Token) (byte : Nat) : Bool := token.start ≤ byte && byte < token.stop

structure Token.Fill (scopes : Nat → List String) (first stop : Nat) (tokens : List Token) :
    Prop where
  one : ∀ byte, first ≤ byte → byte < stop →
    ∃ token, tokens.filter (·.holds byte) = [token] ∧ token.scopes = scopes byte
  none : ∀ byte, byte < first ∨ stop ≤ byte → tokens.filter (·.holds byte) = []

namespace Token.Fill

variable {scopes : Nat → List String} {first middle stop : Nat} {tokens added : List Token}

theorem nil (place : Nat) : Fill scopes place place [] where
  one := fun byte _ _ => by omega
  none := fun _ _ => rfl

theorem single (token : Token) (same : ∀ byte, token.start ≤ byte → byte < token.stop →
    token.scopes = scopes byte) : Fill scopes token.start token.stop [token] where
  one := fun byte after before =>
    ⟨token, by simp [holds, after, before], same byte after before⟩
  none := fun byte outside => by
    have unheld : token.holds byte = false := by
      simp only [holds, Bool.and_eq_false_iff, decide_eq_false_iff_not]
      omega
    simp [unheld]

theorem append (before : Fill scopes first middle tokens) (after : Fill scopes middle stop added)
    (first_le : first ≤ middle) (middle_le : middle ≤ stop) :
    Fill scopes first stop (added ++ tokens) where
  one := by
    intro byte later earlier
    rw [List.filter_append]
    by_cases place : byte < middle
    · rw [after.none byte (.inl place), List.nil_append]
      exact before.one byte later place
    · rw [before.none byte (.inr (by omega)), List.append_nil]
      exact after.one byte (by omega) earlier
  none := by
    intro byte outside
    rw [List.filter_append, before.none byte (by omega), after.none byte (by omega),
      List.append_nil]

end Token.Fill

namespace Grammar

def scopesOf (name : Option String) : List String :=
  match name with
  | some name => (Text.words Text.isAsciiSpace name.toList).map String.ofList
  | none => []

variable {grammar : Grammar}

theorem names_pathAfter_eq (path : ScopePath) (name : Option String) :
    (grammar.pathAfter path name).names = path.names ++ scopesOf name := by
  cases name with
  | none => exact (List.append_nil _).symm
  | some name => exact names_foldl path _

variable (grammar) (text : List Char) (found : Match)

def groupName (id : RuleId) : Option String :=
  (grammar.graph.rule? id).bind fun rule => rule.name.map (·.resolve text found.group?)

def scopesAt (parts : List (Option RuleId × Option Region)) (byte : Nat) : List String :=
  parts.flatMap fun part =>
    match part with
    | (some id, some region) =>
      if region.Holds byte then scopesOf (grammar.groupName text found id) else []
    | _ => []

theorem scopesAt_cons (part : Option RuleId × Option Region)
    (rest : List (Option RuleId × Option Region)) (byte : Nat) :
    grammar.scopesAt text found (part :: rest) byte =
      grammar.scopesAt text found [part] byte ++ grammar.scopesAt text found rest byte := by
  simp [scopesAt]

def PlainGroup (grammar : Grammar) (id : RuleId) : Prop :=
  ∀ rule, grammar.graph.rule? id = some rule → ∀ inner, rule.kind ≠ .capturing (some inner)

def NamesOnly (grammar : Grammar) (rules : CaptureRules) : Prop :=
  ∀ id, some id ∈ rules → grammar.PlainGroup id

end Grammar

namespace Job

variable {grammar : Grammar} {α β : Type} {scopes : Nat → List String} {first middle stop : Nat}

def Fills (scopes : Nat → List String) (first stop : Nat) (job : Job grammar α) : Prop :=
  ∀ work tokens, work.emitted = .plain tokens → first ≤ work.lastStop →
    ∃ added, (job.run work).2.emitted = .plain (added ++ tokens) ∧
      (job.run work).2.lastStop = max work.lastStop stop ∧
      Token.Fill scopes work.lastStop (max work.lastStop stop) added

namespace Fills

theorem emit (path : ScopePath) (stop : Nat)
    (same : ∀ byte, first ≤ byte → byte < stop → path.names = scopes byte) :
    Fills scopes first stop (Job.emit path stop : Job grammar Unit) := by
  intro work tokens plain later
  rw [run_emit]
  by_cases late : stop ≤ work.lastStop
  · rw [if_pos late, max_eq_left late]
    exact ⟨[], plain, rfl, .nil _⟩
  · have place : max work.lastStop stop = stop := max_eq_right (by omega)
    rw [if_neg late, place]
    refine ⟨[⟨work.lastStop, stop, path.names, grammar.tokenMetadata path⟩], ?_, rfl, ?_⟩
    · rw [plain]
      rfl
    · exact .single ⟨_, _, _, _⟩ fun byte after before => same byte (later.trans after) before

theorem bind {after : α → Prop} {job : Job grammar α} {next : α → Job grammar β}
    (before : Fills scopes first middle job) (yields : Yields job after)
    (rest : ∀ value, after value → Fills scopes (max first middle) stop (next value))
    (middle_le : middle ≤ stop) : Fills scopes first stop (job >>= next) := by
  intro work tokens plain later
  obtain ⟨added, emitted, place, fill⟩ := before work tokens plain later
  obtain ⟨more, whole, last, filled⟩ := rest _ (yields work) (job.run work).2 _ emitted
    (by omega)
  rw [place] at last filled
  have same : max (max work.lastStop middle) stop = max work.lastStop stop := by omega
  rw [same] at last filled
  refine ⟨more ++ added, ?_, last, fill.append filled (by omega) (by omega)⟩
  rw [run_bind, whole, List.append_assoc]

theorem skip {job : Job grammar α} {next : α → Job grammar β}
    (before : Fills scopes first middle job)
    (rest : ∀ value, Fills scopes (max first middle) stop (next value)) (middle_le : middle ≤ stop) :
    Fills scopes first stop (job >>= next) :=
  before.bind (show Yields job fun _ => True from fun _ => trivial) (fun value _ => rest value)
    middle_le

theorem quiet {job : Job grammar α} (emitted : ∀ work, (job.run work).2.emitted = work.emitted)
    (places : ∀ work, (job.run work).2.lastStop = work.lastStop) (reached : stop ≤ first) :
    Fills scopes first stop job := by
  intro work tokens plain later
  rw [emitted, places, max_eq_left (reached.trans later)]
  exact ⟨[], plain, rfl, .nil _⟩

theorem pure (value : α) (reached : stop ≤ first) :
    Fills scopes first stop (Pure.pure value : Job grammar α) :=
  quiet (fun _ => rfl) (fun _ => rfl) reached

theorem cached (action : StateM (Caches grammar) α) (reached : stop ≤ first) :
    Fills scopes first stop (Job.cached action) :=
  quiet (fun _ => rfl) (fun _ => rfl) reached

end Fills

section Groups

variable (stack : Stack)

def openScopes (groups : List OpenGroup) (byte : Nat) : List String :=
  (innerScopes stack (groups.dropWhile (·.stop ≤ byte))).names

theorem openScopes_dropWhile (groups : List OpenGroup) {start byte : Nat} (le : start ≤ byte) :
    openScopes stack (groups.dropWhile (·.stop ≤ start)) byte = openScopes stack groups byte := by
  unfold openScopes
  congr 2
  induction groups with
  | nil => rfl
  | cons group rest ih =>
    by_cases ends : group.stop ≤ start
    · have ended : group.stop ≤ byte := ends.trans le
      simp only [List.dropWhile_cons, ends, ended, decide_true, if_true, ih]
    · simp [List.dropWhile_cons, ends]

def approach (start : Nat) (groups : List OpenGroup) : Job grammar (List OpenGroup) := do
  let groups ← closeUpTo start groups
  emit (innerScopes stack groups) start
  return groups

theorem closeUpTo_yields (start : Nat) (groups : List OpenGroup) :
    Yields (closeUpTo start groups : Job grammar _) (· = groups.dropWhile (·.stop ≤ start)) := by
  induction groups with
  | nil => exact Yields.pure _ rfl
  | cons group rest ih =>
    unfold closeUpTo
    by_cases ends : group.stop ≤ start
    · simp only [ends, if_true, List.dropWhile_cons, decide_true]
      exact Yields.skip fun _ => ih
    · simp only [ends, if_false, List.dropWhile_cons, decide_false]
      exact Yields.pure _ rfl

theorem approach_yields (start : Nat) (groups : List OpenGroup) :
    Yields (approach stack start groups : Job grammar _)
      (· = groups.dropWhile (·.stop ≤ start)) :=
  Yields.bind (closeUpTo_yields start groups) fun _ same => Yields.skip fun _ => Yields.pure _ same

theorem approach_fills (start : Nat) (groups : List OpenGroup)
    (same : ∀ byte, first ≤ byte → byte < start → openScopes stack groups byte = scopes byte) :
    Fills scopes first start (approach stack start groups : Job grammar _) := by
  have last (groups : List OpenGroup) (first : Nat)
      (same : ∀ byte, first ≤ byte → byte < start → (innerScopes stack groups).names = scopes byte) :
      Fills scopes first start (do
        emit (innerScopes stack groups) start
        return groups : Job grammar _) :=
    (Fills.emit _ start same).skip (fun _ => Fills.pure _ (le_max_right _ _)) le_rfl
  induction groups generalizing first with
  | nil => exact last [] first same
  | cons group rest ih =>
    unfold approach closeUpTo
    by_cases ends : group.stop ≤ start
    · simp only [ends, if_true, bind_assoc]
      refine (Fills.emit group.scopes group.stop fun byte after before => ?_).skip
        (fun _ => ih fun byte after before => ?_) ends
      · rw [← same byte after (before.trans_le ends)]
        simp [openScopes, innerScopes, before]
      · have ended : group.stop ≤ byte := by omega
        rw [← same byte (by omega) before]
        simp [openScopes, ended]
    · simp only [ends, if_false, pure_bind]
      apply last
      intro byte after before
      rw [← same byte after before]
      simp [openScopes, innerScopes, show byte < group.stop by omega]

theorem closeAll_eq (groups : List OpenGroup) (within : ∀ group ∈ groups, group.stop ≤ stop) :
    (do closeAll groups; emit stack.contentScopes stop : Job grammar Unit) = (do
      let _ ← approach stack stop groups) := by
  induction groups with
  | nil => rfl
  | cons group rest ih =>
    have ends := within group List.mem_cons_self
    unfold approach closeUpTo closeAll
    simp only [ends, if_true, bind_assoc]
    rw [ih fun other member => within other (List.mem_cons_of_mem _ member)]
    simp [approach]

end Groups

structure Laminar (stop : Nat) (groups : List OpenGroup)
    (parts : List (Option RuleId × Option Region)) : Prop where
  ordered : ∀ part ∈ parts, ∀ region ∈ part.2, region.start ≤ region.stop ∧ region.stop ≤ stop
  precede : parts.Pairwise fun first second =>
    ∀ x ∈ first.2, ∀ y ∈ second.2, Region.Precedes x y
  within : ∀ group ∈ groups, group.stop ≤ stop
  around : ∀ group ∈ groups, ∀ part ∈ parts, ∀ region ∈ part.2,
    region.stop ≤ group.stop ∨ group.stop ≤ region.start

namespace Laminar

variable {groups : List OpenGroup} {part : Option RuleId × Option Region}
  {parts : List (Option RuleId × Option Region)} {region : Region} {id : Option RuleId}

theorem tail (laminar : Laminar stop groups (part :: parts)) : Laminar stop groups parts where
  ordered := fun other member => laminar.ordered other (List.mem_cons_of_mem _ member)
  precede := laminar.precede.of_cons
  within := laminar.within
  around := fun group member other known =>
    laminar.around group member other (List.mem_cons_of_mem _ known)

theorem dropWhile (laminar : Laminar stop groups parts) (start : Nat) :
    Laminar stop (groups.dropWhile (·.stop ≤ start)) parts where
  ordered := laminar.ordered
  precede := laminar.precede
  within := fun group member => laminar.within group ((List.dropWhile_suffix _).subset member)
  around := fun group member => laminar.around group ((List.dropWhile_suffix _).subset member)

theorem push (laminar : Laminar stop groups ((id, some region) :: parts)) (scopes : ScopePath) :
    Laminar stop (⟨scopes, region.stop⟩ :: groups) parts where
  ordered := laminar.tail.ordered
  precede := laminar.tail.precede
  within := by
    intro group member
    rcases List.mem_cons.mp member with rfl | old
    · exact (laminar.ordered _ List.mem_cons_self region rfl).2
    · exact laminar.within group old
  around := by
    intro group member part known other here
    rcases List.mem_cons.mp member with rfl | old
    · have precedes := List.rel_of_pairwise_cons laminar.precede known region rfl other here
      exact precedes.imp_left And.right
    · exact laminar.tail.around group old part known other here

theorem scopesAt_eq_nil (laminar : Laminar stop groups ((id, some region) :: parts)) {byte : Nat}
    (before : byte < region.start) (text : List Char) (found : Match) :
    grammar.scopesAt text found ((id, some region) :: parts) byte = [] := by
  have starts : ∀ part ∈ (id, some region) :: parts, ∀ other ∈ part.2,
      region.start ≤ other.start := by
    intro part member other here
    rcases List.mem_cons.mp member with rfl | later
    · obtain rfl := Option.some.inj here
      exact le_rfl
    · have bounds := laminar.ordered _ List.mem_cons_self region rfl
      have precedes := List.rel_of_pairwise_cons laminar.precede later region rfl other here
      exact precedes.elim And.left bounds.1.trans
  refine List.flatMap_eq_nil_iff.mpr fun part member => ?_
  match part with
  | (none, _) => rfl
  | (some _, none) => rfl
  | (some _, some other) =>
    have later := starts _ member other rfl
    have outside : ¬ other.Holds byte := fun holds => by
      simp only [Region.Holds] at holds
      omega
    exact if_neg outside

end Laminar

section Read

variable (retokenize : Retokenize grammar) (text : List Char) (onFirstLine : Bool) (stack : Stack)
  (found : Match)

def enter (groups : List OpenGroup) (id : RuleId) (region : Region) :
    Job grammar (List OpenGroup) :=
  match grammar.graph.rule? id with
  | none => return groups
  | some rule => enterGroup retokenize text onFirstLine stack found groups rule region

def readGroup (groups : List OpenGroup) (part : Option RuleId × Option Region) :
    Job grammar (List OpenGroup) :=
  match part with
  | (some id, some region) =>
    if region.start = region.stop then return groups
    else do
      let groups ← approach stack region.start groups
      enter retokenize text onFirstLine stack found groups id region
  | _ => return groups

theorem readGroups_eq (groups : List OpenGroup) (parts : List (Option RuleId × Option Region))
    (starts : ∀ part ∈ parts, ∀ region ∈ part.2, region.start ≤ found.whole.stop) :
    readGroups retokenize text onFirstLine stack found groups parts =
      parts.foldlM (readGroup retokenize text onFirstLine stack found) groups >>= closeAll := by
  induction parts generalizing groups with
  | nil => simp [readGroups]
  | cons part rest ih =>
    have next (groups : List OpenGroup) :=
      ih groups fun part member => starts part (List.mem_cons_of_mem _ member)
    rw [List.foldlM_cons, bind_assoc]
    obtain ⟨_ | id, _ | region⟩ := part
    case some.some =>
      have inside := starts _ List.mem_cons_self region rfl
      simp only [readGroups, readGroup, approach, enter]
      split
      · simp [next]
      · rw [if_neg (Nat.not_lt.mpr inside)]
        cases grammar.graph.rule? id <;> simp [next]
    all_goals simp [readGroups, readGroup, next]

variable {retokenize text onFirstLine stack found} {scopes : Nat → List String} {first stop : Nat}
  {groups : List OpenGroup} {rest : List (Option RuleId × Option Region)}

def opened (grammar : Grammar) (stack : Stack) (groups : List OpenGroup) (name : Option String)
    (region : Region) : List OpenGroup :=
  match name with
  | none => groups
  | some name => ⟨grammar.pathAfter (innerScopes stack groups) (some name), region.stop⟩ :: groups

section Plain

variable {id : RuleId} (plain : grammar.PlainGroup id) (groups : List OpenGroup) (region : Region)

include plain

theorem enter_eq :
    enter retokenize text onFirstLine stack found groups id region =
      match grammar.groupName text found id with
      | none => return groups
      | some name => do
        let scopes ← cached (Grammar.pushName (innerScopes stack groups) (some name))
        return ⟨scopes, region.stop⟩ :: groups := by
  unfold enter Grammar.groupName
  cases known : grammar.graph.rule? id with
  | none => rfl
  | some rule =>
    unfold enterGroup
    dsimp only [Option.bind_some]
    split
    · rename_i inner kind
      exact absurd kind (plain rule known inner)
    · rfl

theorem enter_fills (reached : stop ≤ first) :
    Fills scopes first stop (enter retokenize text onFirstLine stack found groups id region) := by
  rw [enter_eq plain]
  split
  · exact Fills.pure _ reached
  · exact (Fills.cached _ reached).skip (fun _ => Fills.pure _ (le_max_right _ _)) le_rfl

theorem enter_yields :
    Yields (enter retokenize text onFirstLine stack found groups id region)
      (· = opened grammar stack groups (grammar.groupName text found id) region) := by
  rw [enter_eq plain]
  cases grammar.groupName text found id with
  | none => exact Yields.pure _ rfl
  | some name =>
    refine Yields.bind (pushName_yields _ _) ?_
    rintro scopes rfl
    exact Yields.pure _ rfl

end Plain

theorem opened_laminar {id : Option RuleId} {region : Region}
    (laminar : Laminar stop groups ((id, some region) :: rest)) (name : Option String) :
    Laminar stop (opened grammar stack groups name region) rest := by
  cases name with
  | none => exact laminar.tail
  | some name => exact laminar.push _

theorem openScopes_opened {id : Option RuleId} {region : Region}
    (laminar : Laminar stop groups ((id, some region) :: rest)) (name : Option String) {byte : Nat}
    (after : region.start ≤ byte) :
    openScopes stack (opened grammar stack (groups.dropWhile (·.stop ≤ region.start)) name region)
        byte =
      openScopes stack groups byte ++ if region.Holds byte then Grammar.scopesOf name else [] := by
  have kept := openScopes_dropWhile stack groups after
  cases name with
  | none => simp [opened, kept, Grammar.scopesOf]
  | some name =>
    rw [← kept]
    generalize left : groups.dropWhile (·.stop ≤ region.start) = now
    by_cases inside : byte < region.stop
    · have around : now.dropWhile (·.stop ≤ byte) = now := by
        cases now with
        | nil => rfl
        | cons group outer =>
          -- It reaches behind the start of the new one, so the new one lies in it.
          have present : groups.dropWhile (·.stop ≤ region.start) ≠ [] := by simp [left]
          have later := List.head_dropWhile_not _ present
          have member : group ∈ groups := (List.dropWhile_suffix _).subset (left ▸ List.mem_cons_self)
          have reach := laminar.around group member _ List.mem_cons_self region rfl
          simp only [left, List.head_cons, decide_eq_false_iff_not] at later
          simp [show byte < group.stop by omega]
      have holds : region.Holds byte := ⟨after, inside⟩
      simp [opened, openScopes, inside, innerScopes, around, holds, Grammar.names_pathAfter_eq]
    · have behind : ¬ region.Holds byte := fun holds => inside holds.2
      simp [opened, openScopes, Nat.not_lt.mp inside, behind]

structure Accounts (grammar : Grammar) (text : List Char) (stack : Stack) (found : Match)
    (scopes : Nat → List String) (first stop : Nat) (groups : List OpenGroup)
    (parts : List (Option RuleId × Option Region)) : Prop where
  laminar : Laminar stop groups parts
  same : ∀ byte, first ≤ byte → byte < stop →
    openScopes stack groups byte ++ grammar.scopesAt text found parts byte = scopes byte

variable (retokenize onFirstLine) {part : Option RuleId × Option Region}

theorem Accounts.skip
    (accounts : Accounts grammar text stack found scopes first stop groups (part :: rest))
    (nothing : ∀ byte, grammar.scopesAt text found [part] byte = []) :
    Accounts grammar text stack found scopes (max first 0) stop groups rest where
  laminar := accounts.laminar.tail
  same := by
    intro byte after before
    rw [← accounts.same byte (le_of_max_le_left after) before]
    rw [grammar.scopesAt_cons, nothing, List.nil_append]

theorem readGroup_fills
    (accounts : Accounts grammar text stack found scopes first stop groups (part :: rest))
    (plain : ∀ id, part.1 = some id → grammar.PlainGroup id) :
    ∃ middle ≤ stop,
      Fills scopes first middle (readGroup retokenize text onFirstLine stack found groups part) ∧
        Yields (readGroup retokenize text onFirstLine stack found groups part) fun now =>
          Accounts grammar text stack found scopes (max first middle) stop now rest := by
  have idle (nothing : ∀ byte, grammar.scopesAt text found [part] byte = []) :
      ∃ middle ≤ stop, Fills scopes first middle (return groups : Job grammar _) ∧
        Yields (return groups : Job grammar _) fun now =>
          Accounts grammar text stack found scopes (max first middle) stop now rest :=
    ⟨0, Nat.zero_le _, Fills.pure _ (Nat.zero_le _), Yields.pure _ (accounts.skip nothing)⟩
  obtain ⟨_ | id, _ | region⟩ := part
  case some.some =>
    by_cases empty : region.start = region.stop
    · simp only [readGroup, empty, if_true]
      apply idle
      intro byte
      have none : ¬ region.Holds byte := fun holds => by
        simp only [Region.Holds] at holds
        omega
      simp [Grammar.scopesAt, none]
    · simp only [readGroup, empty, if_false]
      have laminar := accounts.laminar
      obtain ⟨ordered, inside⟩ := laminar.ordered _ List.mem_cons_self region rfl
      have approaches : Fills scopes first region.start
          (approach stack region.start groups : Job grammar _) := by
        apply approach_fills
        intro byte after before
        rw [← accounts.same byte after (by omega), laminar.scopesAt_eq_nil before, List.append_nil]
      refine ⟨region.start, ordered.trans inside, ?_, ?_⟩
      · exact approaches.skip (fun now => enter_fills (plain id rfl) now region (le_max_right _ _))
          le_rfl
      · refine Yields.bind (approach_yields stack region.start groups) ?_
        rintro _ rfl work
        rw [enter_yields (plain id rfl) _ region work]
        refine ⟨opened_laminar (laminar.dropWhile _) _, fun byte after before => ?_⟩
        rw [openScopes_opened laminar _ (le_of_max_le_right after),
          ← accounts.same byte (le_of_max_le_left after) before, List.append_assoc]
        rfl
  all_goals exact idle fun _ => rfl

theorem readGroups_fills (parts : List (Option RuleId × Option Region))
    (accounts : Accounts grammar text stack found scopes first found.whole.stop groups parts)
    (plain : ∀ id region, (some id, region) ∈ parts → grammar.PlainGroup id) :
    Fills scopes first found.whole.stop (do
      readGroups retokenize text onFirstLine stack found groups parts
      emit stack.contentScopes found.whole.stop) := by
  have ordered := accounts.laminar.ordered
  rw [readGroups_eq _ _ _ _ _ _ _ fun part member region here =>
    (ordered part member region here).1.trans (ordered part member region here).2]
  induction parts generalizing first groups with
  | nil =>
    rw [List.foldlM_nil, pure_bind, closeAll_eq stack groups accounts.laminar.within]
    apply Fills.skip _ (fun _ => Fills.pure _ (le_max_right _ _)) le_rfl
    apply approach_fills
    intro byte after before
    rw [← accounts.same byte after before]
    exact (List.append_nil _).symm
  | cons part rest ih =>
    obtain ⟨middle, middle_le, fills, yields⟩ := readGroup_fills retokenize onFirstLine accounts
      fun id here => plain id part.2 (here ▸ List.mem_cons_self)
    rw [List.foldlM_cons, bind_assoc, bind_assoc]
    apply fills.bind yields _ middle_le
    intro now accounts
    rw [← bind_assoc]
    exact ih accounts (fun id region member => plain id region (List.mem_cons_of_mem _ member))
      accounts.laminar.ordered

end Read

end Job

section Tokens

variable {tokens : List Token} {stop : Nat}

theorem Tiles.none (tiles : Tiles tokens stop) {byte : Nat} (behind : stop ≤ byte) :
    tokens.filter (·.holds byte) = [] := by
  induction tokens generalizing stop with
  | nil => rfl
  | cons last rest ih =>
    obtain ⟨rfl, filled, before⟩ := tiles
    rw [List.filter_cons_of_neg (by simp [Token.holds, behind]),
      ih before (filled.le.trans behind)]

theorem Tiles.one (tiles : Tiles tokens stop) {byte : Nat} (before : byte < stop) :
    ∃ token, tokens.filter (·.holds byte) = [token] := by
  induction tokens generalizing stop with
  | nil => exact absurd (tiles ▸ before) (Nat.not_lt_zero _)
  | cons last rest ih =>
    obtain ⟨rfl, filled, earlier⟩ := tiles
    by_cases inside : last.start ≤ byte
    · refine ⟨last, ?_⟩
      rw [List.filter_cons_of_pos (by simp [Token.holds, inside, before]), earlier.none inside]
    · rw [List.filter_cons_of_neg (by simp [Token.holds, inside])]
      exact ih earlier (Nat.lt_of_not_le inside)

end Tokens

theorem pairwise_zip {α β : Type} {relation : β → β → Prop} (firsts : List α) {seconds : List β}
    (pairs : seconds.Pairwise relation) :
    (firsts.zip seconds).Pairwise fun a b => relation a.2 b.2 := by
  induction pairs generalizing firsts with
  | nil => simp
  | cons first _ ih =>
    cases firsts with
    | nil => simp
    | cons head tail =>
      exact .cons (fun part member => first _ (List.of_mem_zip member).2) (ih tail)

theorem Regex.Match.Nested.laminar {found : Match} (nested : found.Nested) (rules : CaptureRules) :
    Job.Laminar found.whole.stop [] (rules.zip (some found.whole :: found.groups)) where
  ordered := by
    intro part member region here
    rcases List.mem_cons.mp (List.of_mem_zip member).2 with whole | inner
    · obtain rfl := Option.some.inj (here.symm.trans whole)
      exact ⟨nested.ordered, le_rfl⟩
    · exact (nested.inside region (here ▸ inner)).2
  precede := by
    refine pairwise_zip rules (.cons ?_ nested.precede)
    rintro other member whole ⟨⟩ region here
    obtain ⟨after, _, before⟩ := nested.inside region (here ▸ member)
    exact .inl ⟨after, before⟩
  within := fun _ => nofun
  around := fun _ => nofun

namespace Grammar

variable {grammar : Grammar}

/-- Captured groups nest. A byte of the match that has no token yet gets one, in the scopes of all
groups around it; one that a group of an earlier match was read over has its token already. -/
theorem captures_nest (retokenize : Retokenize grammar) (text : List Char) (onFirstLine : Bool)
    (stack : Stack) (rules : CaptureRules) (found : Match) (nested : found.Nested)
    (plain : grammar.NamesOnly rules) (work : Work grammar) (tokens : List Token)
    (emitted : work.emitted = .plain tokens) (tiles : Tiles tokens work.lastStop) :
    let final := ((do
      Job.captures retokenize text onFirstLine stack rules found
      Job.emit stack.contentScopes found.whole.stop : Job grammar Unit).run work).2
    ∃ added, final.emitted = .plain (added ++ tokens) ∧ ∀ byte, found.whole.Holds byte →
      ∃ token, (added ++ tokens).filter (·.holds byte) = [token] ∧
        (work.lastStop ≤ byte → token ∈ added ∧ token.scopes = stack.contentScopes.names ++
          grammar.scopesAt text found (rules.zip (some found.whole :: found.groups)) byte) ∧
        (byte < work.lastStop → token ∈ tokens) := by
  obtain ⟨added, whole, -, fill⟩ := Job.readGroups_fills retokenize onFirstLine _
    ⟨nested.laminar rules, fun _ _ _ => rfl⟩
    (fun id region member => plain id (List.of_mem_zip member).1) work tokens emitted
    (Nat.zero_le _)
  refine ⟨added, whole, fun byte ⟨_, inside⟩ => ?_⟩
  rw [List.filter_append]
  by_cases covered : byte < work.lastStop
  · obtain ⟨token, one⟩ := tiles.one covered
    rw [fill.none byte (.inl covered), one]
    refine ⟨token, rfl, fun behind => absurd covered (Nat.not_lt.mpr behind), fun _ => ?_⟩
    exact List.mem_of_mem_filter (one ▸ List.mem_singleton_self token)
  · obtain ⟨token, one, scopes⟩ := fill.one byte (by omega) (by omega)
    rw [tiles.none (Nat.le_of_not_lt covered), one]
    refine ⟨token, rfl, fun _ => ⟨?_, scopes⟩, fun before => absurd before covered⟩
    exact List.mem_of_mem_filter (one ▸ List.mem_singleton_self token)

end Grammar

def RuleGraph.peeking : RuleGraph :=
  let letter (c : Char) : Regex.Expr := .set (.char c)
  let named (id : RuleId) (c : Char) : Rule := ⟨id, some [.plain c], none, .capturing none⟩
  ⟨#[.held 0 [1, 3],
    ⟨1, none, none, .matching (.unanchored "a(?=(b))"
      (.seq (letter 'a') (.ahead false (.group 1 (letter 'b'))))) [none, some 2]⟩, named 2 'x',
    ⟨3, some [.plain 'm'], none, .matching (.unanchored "(b)c"
      (.seq (.group 1 (letter 'b')) (letter 'c'))) [some 4, some 5]⟩, named 4 'y', named 5 'z'],
    0, []⟩

namespace Grammar

def peeking : Grammar :=
  ⟨⟨some "t", none, [], [], [], none, [], [], none⟩, RuleGraph.peeking, ⟨0, []⟩, [], none, none⟩

def peekingMatch : Match := ⟨⟨1, 3⟩, [some ⟨1, 2⟩]⟩

def peekingRules : CaptureRules := [some 4, some 5]

def peekingStack : Stack :=
  let path := peeking.pathAfter peeking.firstStack.contentScopes (some "m")
  peeking.firstStack.push ⟨2, 3, some 1, none, false, none, path, path⟩

def peekingEnd (work : Work peeking) : Work peeking :=
  ((do
    Job.captures (retokenize 9) (lineText "abc") false peekingStack peekingRules peekingMatch
    Job.emit peekingStack.contentScopes peekingMatch.whole.stop : Job peeking Unit).run work).2

theorem peekingMatch_nested : peekingMatch.Nested :=
  Match.nested_of_group (by decide) (by decide) (by decide)

theorem peekingRules_plain : peeking.NamesOnly peekingRules := by
  intro id member rule known inner
  have both : id = 4 ∨ id = 5 := by simpa [peekingRules] using member
  rcases both with rfl | rfl <;>
  · obtain rfl := Option.some.inj known
    exact nofun

theorem peekingScopes :
    peekingStack.contentScopes.names ++ peeking.scopesAt (lineText "abc") peekingMatch
      (peekingRules.zip (some peekingMatch.whole :: peekingMatch.groups)) 1 =
        ["t", "m", "y", "z"] := by
  cbv

theorem captures_nest_peeking :
    ∃ added token, (peekingEnd ⟨Caches.empty peeking, .plain [⟨0, 1, ["t"], 0⟩], 1, false⟩).emitted =
        .plain (added ++ [⟨0, 1, ["t"], 0⟩]) ∧
      (added ++ [⟨0, 1, ["t"], 0⟩]).filter (·.holds 1) = [token] ∧
      token.scopes = ["t", "m", "y", "z"] := by
  obtain ⟨added, emitted, each⟩ := captures_nest (retokenize 9) (lineText "abc") false peekingStack
    peekingRules peekingMatch peekingMatch_nested peekingRules_plain
    ⟨Caches.empty peeking, .plain [⟨0, 1, ["t"], 0⟩], 1, false⟩ _ rfl ⟨rfl, Nat.zero_lt_one, rfl⟩
  obtain ⟨token, one, fresh, -⟩ := each 1 (by decide)
  exact ⟨added, token, emitted, one, (fresh le_rfl).2.trans peekingScopes⟩

def peekingWork : Work peeking :=
  ((Job.advance (retokenize 9) (lineText "abc") (lineSize "abc")
    (lineStart peeking.firstStack true)).run ⟨Caches.empty peeking, .plain [], 0, false⟩).2

theorem peekingEnd_tokens :
    (peekingEnd peekingWork).emitted =
      .plain [⟨2, 3, ["t", "m", "y"], 0⟩, ⟨1, 2, ["t", "x"], 0⟩, ⟨0, 1, ["t"], 0⟩] := by
  cbv

theorem peekingMatch_best :
    ((Text.Cursor.at? (lineText "abc") 1).bind fun cursor =>
      Candidate.best? peeking ⟨cursor, false, none⟩ peeking.firstStack) =
        some ⟨.rule 3, peekingMatch⟩ := by
  cbv

theorem peeking_covered :
    ((Text.Cursor.at? (lineText "abc") 1).bind fun cursor =>
      Candidate.best? peeking ⟨cursor, false, none⟩ peeking.firstStack) =
        some ⟨.rule 3, peekingMatch⟩ ∧
    peekingMatch.Nested ∧ peeking.NamesOnly peekingRules ∧ peekingMatch.whole.Holds 1 ∧
      ¬ ∃ token, (peekingEnd peekingWork).emitted.tokens.filter (·.holds 1) = [token] ∧
        token.scopes = peekingStack.contentScopes.names ++ peeking.scopesAt (lineText "abc")
          peekingMatch (peekingRules.zip (some peekingMatch.whole :: peekingMatch.groups)) 1 := by
  refine ⟨peekingMatch_best, peekingMatch_nested, peekingRules_plain, by decide, ?_⟩
  rintro ⟨token, one, scopes⟩
  rw [peekingScopes] at scopes
  rw [peekingEnd_tokens] at one
  obtain rfl : ⟨1, 2, ["t", "x"], 0⟩ = token := (List.cons.inj one).1
  exact absurd scopes (by decide)

end Grammar

end Highlighter
