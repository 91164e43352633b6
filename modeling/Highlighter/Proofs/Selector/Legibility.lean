import Highlighter.Proofs.Selector.Spelling

set_option autoImplicit false

namespace Highlighter

namespace Matcher

def isOperand : Matcher → Bool
  | .and _ => false
  | _ => true

def startsWithName : Matcher → Bool
  | .path _ => true
  | _ => false

def endsWithName : Matcher → Bool
  | .path _ => true
  | .not inner => endsWithName inner
  | _ => false

def areApart : List Matcher → Bool
  | first :: second :: rest =>
    !(first.endsWithName && second.startsWithName) && areApart (second :: rest)
  | _ => true

mutual

/-- Nothing that is negated or stands in a conjunction is a conjunction itself, and no chain stands
right behind another; a conjunction and a group have two parts at least, and a chain has an atom. -/
def isLegible : Matcher → Bool
  | .path atoms => !atoms.isEmpty
  | .not inner => inner.isOperand && isLegible inner
  | .and all => decide (2 ≤ all.length) && all.all isOperand && areApart all && areLegible all
  | .or any => decide (2 ≤ any.length) && areLegible any

def areLegible : List Matcher → Bool
  | [] => true
  | matcher :: rest => isLegible matcher && areLegible rest

end

mutual

def groups : Matcher → Nat
  | .path _ => 0
  | .not inner => groups inner
  | .and all => groupsOf all
  | .or any => groupsOf any + 1

def groupsOf : List Matcher → Nat
  | [] => 0
  | matcher :: rest => groups matcher + groupsOf rest

end

end Matcher

namespace Selector

open Matcher (groupsOf areApart areLegible)

section

variable {form : Form} {tokens : List Token} {found : List Matcher}

theorem groups_joined (all : List Matcher) : (joined all).groups = groupsOf all := by
  unfold joined
  split <;> simp [Matcher.groups, groupsOf]

theorem openings_separators (part : ∀ token ∈ tokens, token.isSeparator = true) :
    tokens.count .opening = 0 := by
  refine List.count_eq_zero.mpr fun member => ?_
  exact nomatch part _ member

theorem two_le_length (present : found ≠ []) (several : ∀ only, found ≠ [only]) :
    2 ≤ found.length := by
  match found with
  | [] => exact (present rfl).elim
  | [only] => exact (several only rfl).elim
  | _ :: _ :: _ => simp

theorem Derives.groups_le (derives : Derives form tokens found) :
    groupsOf found ≤ tokens.count .opening := by
  induction derives with
  | @negated sign _ _ negates _ ih =>
    cases sign <;> simp_all [Matcher.groups, groupsOf, Token.isSign]
  | @grouped tokens any _ ih =>
    have within : groupsOf [gathered any] ≤ groupsOf any + 1 := by
      unfold gathered
      split <;> simp [Matcher.groups, groupsOf]
    simp
    omega
  | chain name names => simp [Matcher.groups, groupsOf]
  | one _ ih => exact ih
  | more _ _ _ ih ihRest =>
    simp [groupsOf] at ih ihRest ⊢
    omega
  | last _ part ih => simpa [groupsOf, groups_joined, openings_separators part] using ih
  | parted _ _ part _ ih ihRest =>
    simp [groupsOf, groups_joined, openings_separators part] at ih ihRest ⊢
    omega

def Legible : Form → List Token → List Matcher → Prop
  | .operand, tokens, found => ∃ matcher, found = [matcher] ∧ matcher.isOperand = true ∧
      matcher.isLegible = true ∧ tokens.head?.any (·.isName) = matcher.startsWithName ∧
      tokens.getLast?.any (·.isName) = matcher.endsWithName
  | .conjunction, tokens, found => found.all (·.isOperand) = true ∧ areApart found = true ∧
      areLegible found = true ∧
      tokens.head?.any (·.isName) = found.head?.any (·.startsWithName)
  | .group, _, found => areLegible found = true

theorem isLegible_joined (present : found ≠ []) (legible : Legible .conjunction tokens found) :
    (joined found).isLegible = true := by
  obtain ⟨operands, apart, all, -⟩ := legible
  unfold joined
  split
  · simpa [areLegible] using all
  · rename_i other
    have several : 2 ≤ found.length := two_le_length present other
    simp [Matcher.isLegible, several, apart, all]
    simpa using operands

theorem Derives.legible (derives : Derives form tokens found)
    (tight : tokens.count .opening = groupsOf found) : Legible form tokens found := by
  induction derives with
  | @negated sign tokens inner negates derived ih =>
    have same : tokens.count .opening = groupsOf [inner] := by
      cases sign <;> simp_all [Matcher.groups, groupsOf, Token.isSign]
    obtain ⟨_, only, operand, legible, -, ends⟩ := ih same
    obtain rfl := List.singleton_inj.mp only
    refine ⟨_, rfl, rfl, by simp [Matcher.isLegible, operand, legible], ?_, ?_⟩
    · cases sign <;> simp_all [Token.isSign, Token.isName, Matcher.startsWithName]
    · obtain ⟨token, rest, rfl, _⟩ := derived.head
      rwa [List.getLast?_cons_cons]
  | @grouped tokens any derived ih =>
    have within := derived.groups_le
    have closed : tokens.count .opening + 1 = groupsOf [gathered any] := by simpa using tight
    unfold gathered at closed ⊢
    split at closed
    · omega
    · rename_i several
      have same : tokens.count .opening = groupsOf any := by
        simpa [groupsOf, Matcher.groups] using closed
      have length : 2 ≤ any.length := two_le_length derived.found_ne_nil several
      refine ⟨.or any, rfl, rfl, ?_, rfl, ?_⟩
      · simp only [Matcher.isLegible, length, decide_true, Bool.true_and]
        exact ih same
      · rw [← List.cons_append, List.getLast?_concat]
        rfl
  | chain name names =>
    refine ⟨_, rfl, rfl, rfl, rfl, ?_⟩
    rw [List.getLast?_map, List.getLast?_eq_some_getLast (List.cons_ne_nil _ _)]
    rfl
  | one _ ih =>
    obtain ⟨matcher, same, operand, legible, starts, -⟩ := ih tight
    obtain rfl := List.singleton_inj.mp same
    exact ⟨by simpa using operand, rfl, by simpa [areLegible] using legible, by simpa using starts⟩
  | @more tokens others first rest derived derivedRest longest ih ihRest =>
    have within := derived.groups_le
    have withinRest := derivedRest.groups_le
    have both : tokens.count .opening + others.count .opening = groupsOf [first] + groupsOf rest := by
      simpa [groupsOf] using tight
    obtain ⟨_, same, operand, legible, starts, ends⟩ := ih (by omega)
    obtain rfl := List.singleton_inj.mp same
    obtain ⟨operands, apart, all, startsRest⟩ := ihRest (by omega)
    obtain ⟨second, more, rfl⟩ := List.exists_cons_of_ne_nil derivedRest.found_ne_nil
    obtain ⟨token, _, rfl, _⟩ := derived.head
    have between : first.endsWithName = true → second.startsWithName = false := fun name => by
      simpa using startsRest.symm.trans (longest (ends.trans name))
    refine ⟨by simp_all, ?_, by simp_all [areLegible], by simpa using starts⟩
    rw [areApart, apart, Bool.and_true]
    cases name : first.endsWithName <;> simp_all
  | @last tokens separators all derived part ih =>
    have same : tokens.count .opening = groupsOf all := by
      simpa [groupsOf, groups_joined, openings_separators part] using tight
    have legible := isLegible_joined derived.found_ne_nil (ih same)
    simpa [Legible, areLegible] using legible
  | @parted tokens separators others all any derived _ part derivedRest ih ihRest =>
    have within := derived.groups_le
    have withinRest := derivedRest.groups_le
    have both : tokens.count .opening + others.count .opening = groupsOf all + groupsOf any := by
      simpa [groupsOf, groups_joined, openings_separators part] using tight
    have legible := isLegible_joined derived.found_ne_nil (ih (by omega))
    have later : areLegible any = true := ihRest (by omega)
    simp [Legible, areLegible, legible, later]

theorem Derives.operand_of_joined (derives : Derives .conjunction tokens found) {matcher : Matcher}
    (same : joined found = matcher) (operand : matcher.isOperand = true) :
    Derives .operand tokens [matcher] := by
  subst same
  cases derives with
  | one derived => exact derived
  | more _ derivedRest _ =>
    obtain ⟨second, more, rfl⟩ := List.exists_cons_of_ne_nil derivedRest.found_ne_nil
    exact nomatch operand

theorem openings_bars (lists : List (List Token)) :
    ([Token.bar].intercalate lists).count .opening = lists.flatten.count .opening := by
  induction lists with
  | nil => rfl
  | cons list rest ih => cases rest <;> simp_all [List.intercalate_cons_cons]

end

end Selector

namespace Matcher

open Selector (Derives Token joined gathered)

mutual

theorem openings_written : (matcher : Matcher) → matcher.written.count .opening = matcher.groups
  | .path atoms => List.count_eq_zero.mpr fun member => by simp [written] at member
  | .not inner => by simpa [written, groups] using openings_written inner
  | .and all => openings_writtens all
  | .or any => by simpa [written, groups, Selector.openings_bars] using openings_writtens any

theorem openings_writtens : (matchers : List Matcher) →
    (writtens matchers).flatten.count .opening = groupsOf matchers
  | [] => rfl
  | matcher :: rest => by
    simp [writtens, groupsOf, openings_written matcher, openings_writtens rest]

end

theorem isLegible_of_derives {matcher : Matcher} {all : List Matcher}
    (derives : Derives .conjunction matcher.written all) (same : joined all = matcher) :
    matcher.isLegible = true := by
  have tight : matcher.written.count .opening = groupsOf all := by
    rw [openings_written, ← same, Selector.groups_joined]
  exact same ▸ Selector.isLegible_joined derives.found_ne_nil (derives.legible tight)

theorem ends_written {matcher : Matcher} (derives : Derives .operand matcher.written [matcher]) :
    matcher.written.head?.any (·.isName) = matcher.startsWithName ∧
      matcher.written.getLast?.any (·.isName) = matcher.endsWithName := by
  obtain ⟨_, same, -, -, ends⟩ := derives.legible (openings_written matcher)
  obtain rfl := List.singleton_inj.mp same
  exact ends

theorem derives_flatten {all : List Matcher} (present : all ≠ [])
    (operands : ∀ matcher ∈ all, Derives .operand matcher.written [matcher])
    (apart : areApart all = true) : Derives .conjunction (all.map written).flatten all := by
  induction all with
  | nil => exact (present rfl).elim
  | cons first rest ih =>
    obtain ⟨here, later⟩ := List.forall_mem_cons.mp operands
    cases rest with
    | nil => simpa using here.one
    | cons second rest =>
      rw [areApart, Bool.and_eq_true] at apart
      refine here.more (ih (List.cons_ne_nil _ _) later apart.2) fun name => ?_
      have next := later second List.mem_cons_self
      have ends := (ends_written here).2.symm.trans name
      have starts : second.startsWithName = false := by simpa [ends] using apart.1
      rw [← (ends_written next).1] at starts
      obtain ⟨token, others, whole, _⟩ := next.head
      simpa [whole] using starts

theorem derives_bars {any : List Matcher} (present : any ≠ []) {found : Matcher → List Matcher}
    (derives : ∀ matcher ∈ any, Derives .conjunction matcher.written (found matcher)) :
    Derives .group ([.bar].intercalate (any.map written)) (any.map fun m => joined (found m)) := by
  induction any with
  | nil => exact (present rfl).elim
  | cons first rest ih =>
    obtain ⟨here, later⟩ := List.forall_mem_cons.mp derives
    cases rest with
    | nil =>
      have none : ∀ token ∈ ([] : List Token), token.isSeparator = true := by simp
      simpa using here.last none
    | cons second rest =>
      have bar : ∀ token ∈ [Token.bar], token.isSeparator = true := by simp [Token.isSeparator]
      rw [List.map_cons, List.map_cons, List.intercalate_cons_cons, List.append_assoc]
      exact here.parted (List.cons_ne_nil _ _) bar (ih (List.cons_ne_nil _ _) later)

mutual

theorem derives_written : (matcher : Matcher) → matcher.isLegible = true →
    ∃ all, Derives .conjunction matcher.written all ∧ joined all = matcher
  | .path [], legible => nomatch legible
  | .path (name :: names), _ => ⟨_, .one (.chain name names), rfl⟩
  | .not inner, legible => by
    obtain ⟨operand, within⟩ : inner.isOperand = true ∧ inner.isLegible = true := by
      simpa [isLegible] using legible
    obtain ⟨all, derives, same⟩ := derives_written inner within
    exact ⟨_, .one (.negated rfl (derives.operand_of_joined same operand)), rfl⟩
  | .and all, legible => by
    simp only [isLegible, Bool.and_eq_true, decide_eq_true_eq, List.all_eq_true] at legible
    obtain ⟨⟨⟨several, operands⟩, apart⟩, within⟩ := legible
    have parts := derives_of_mem all within
    refine ⟨all, ?_, ?_⟩
    · rw [written, writtens_eq_map]
      refine derives_flatten (by rintro rfl; simp at several) (fun matcher member => ?_) apart
      obtain ⟨found, derives, same⟩ := parts matcher member
      exact derives.operand_of_joined same (operands matcher member)
    · match all, several with
      | _ :: _ :: _, _ => rfl
  | .or any, legible => by
    simp only [isLegible, Bool.and_eq_true, decide_eq_true_eq] at legible
    obtain ⟨several, within⟩ := legible
    choose! found derives same using derives_of_mem any within
    have group := derives_bars (by rintro rfl; simp at several) derives
    rw [List.map_congr_left same, List.map_id'] at group
    refine ⟨[.or any], ?_, rfl⟩
    have gathers : gathered any = .or any := by
      match any, several with
      | _ :: _ :: _, _ => rfl
    rw [written, writtens_eq_map]
    exact gathers ▸ (.one (.grouped group))

theorem derives_of_mem : (matchers : List Matcher) → areLegible matchers = true →
    ∀ matcher ∈ matchers, ∃ all, Derives .conjunction matcher.written all ∧ joined all = matcher
  | [], _, _, member => absurd member List.not_mem_nil
  | first :: rest, legible, matcher, member => by
    obtain ⟨here, later⟩ := Bool.and_eq_true_iff.mp legible
    rcases List.mem_cons.mp member with same | inner
    · exact same ▸ derives_written first here
    · exact derives_of_mem rest later matcher inner

end

end Matcher

namespace Selector

theorem Derives.negate {tokens : List Token} {found : List Matcher}
    (derives : Derives .conjunction tokens found) :
    ∃ all, Derives .conjunction (.minus :: tokens) all := by
  cases derives with
  | one operand => exact ⟨_, .one (.negated rfl operand)⟩
  | more operand rest longest =>
    have negated : Derives .operand (.minus :: _) [_] := .negated rfl operand
    refine ⟨_, negated.more rest ?_⟩
    obtain ⟨token, others, rfl, _⟩ := operand.head
    rwa [List.getLast?_cons_cons]

theorem Derives.extend {tokens : List Token} {matcher : Matcher}
    (derives : Derives .operand tokens [matcher])
    (ends : tokens.getLast?.any (·.isName) = true) (names : List String) :
    ∃ longer, Derives .operand (tokens ++ names.map .identifier) [longer] := by
  generalize whole : Form.operand = form, same : [matcher] = found at derives
  induction derives generalizing matcher with
  | negated negates derived ih =>
    obtain ⟨token, others, rfl, _⟩ := derived.head
    obtain ⟨longer, derives⟩ := ih (by rwa [List.getLast?_cons_cons] at ends) rfl rfl
    exact ⟨_, .negated negates derives⟩
  | grouped _ _ =>
    rw [← List.cons_append, List.getLast?_concat] at ends
    exact nomatch ends
  | chain name others =>
    rw [← List.map_append, List.cons_append]
    exact ⟨_, .chain name (others ++ names)⟩
  | one _ _ | more _ _ _ _ _ | last _ _ _ | parted _ _ _ _ _ _ => exact nomatch whole

theorem Derives.exists_chain {tokens : List Token} {matcher : Matcher}
    (derives : Derives .operand tokens [matcher])
    (starts : tokens.head?.any (·.isName) = true) :
    ∃ names : List String, tokens = names.map .identifier := by
  cases derives with
  | @negated sign _ _ negates _ =>
    have starts : sign.isName = true := by simpa using starts
    cases sign <;> cases negates
    all_goals cases starts
  | grouped _ => exact nomatch starts
  | chain name names => exact ⟨_, rfl⟩

-- Where a chain would run on into the next, both are one.
theorem Derives.append_operand {tokens others : List Token} {matcher : Matcher} {more : List Matcher}
    (derives : Derives .operand tokens [matcher]) (behind : Derives .conjunction others more) :
    ∃ all, Derives .conjunction (tokens ++ others) all := by
  by_cases longest : tokens.getLast?.any (·.isName) = true → others.head?.any (·.isName) = false
  · exact ⟨_, .more derives behind longest⟩
  obtain ⟨ends, starts⟩ : tokens.getLast?.any (·.isName) = true ∧
      others.head?.any (·.isName) = true := by simpa using longest
  cases behind with
  | one operand =>
    obtain ⟨names, rfl⟩ := operand.exists_chain starts
    obtain ⟨longer, derived⟩ := derives.extend ends names
    exact ⟨_, .one derived⟩
  | @more front rest _ _ operand conjunction apart =>
    obtain ⟨token, tail, rfl, _⟩ := operand.head
    obtain ⟨names, same⟩ := operand.exists_chain starts
    obtain ⟨longer, derived⟩ := derives.extend ends names
    rw [← same] at derived
    rw [← List.append_assoc]
    refine ⟨_, .more derived conjunction fun name => apart ?_⟩
    rwa [List.getLast?_append_of_ne_nil _ (List.cons_ne_nil _ _)] at name

theorem Derives.append {tokens others : List Token} {found more : List Matcher}
    (derives : Derives .conjunction tokens found) (behind : Derives .conjunction others more) :
    ∃ all, Derives .conjunction (tokens ++ others) all := by
  generalize whole : Form.conjunction = form at derives
  induction derives with
  | one operand _ => exact operand.append_operand behind
  | more operand _ _ _ ih =>
    obtain ⟨all, derives⟩ := ih whole
    rw [List.append_assoc]
    exact operand.append_operand derives
  | negated _ _ _ | grouped _ _ | chain _ _ | last _ _ _ | parted _ _ _ _ _ _ => exact nomatch whole

theorem exists_derives_flatten {all : List Matcher} (present : all ≠ [])
    (derives : ∀ matcher ∈ all, ∃ found, Derives .conjunction matcher.written found) :
    ∃ found, Derives .conjunction (all.map (·.written)).flatten found := by
  induction all with
  | nil => exact (present rfl).elim
  | cons first rest ih =>
    obtain ⟨⟨_, here⟩, later⟩ := List.forall_mem_cons.mp derives
    cases rest with
    | nil => exact ⟨_, by simpa using here⟩
    | cons second rest =>
      obtain ⟨_, behind⟩ := ih (List.cons_ne_nil _ _) later
      exact here.append behind

theorem exists_derives_joined {all : List Matcher} (present : all ≠ [])
    (derives : ∀ matcher ∈ all, ∃ found, Derives .conjunction matcher.written found) :
    ∃ found, Derives .conjunction (joined all).written found := by
  unfold joined
  split
  · exact derives _ (List.mem_singleton_self _)
  · rw [Matcher.written, Matcher.writtens_eq_map]
    exact exists_derives_flatten present derives

theorem exists_derives_gathered {any : List Matcher} (present : any ≠ [])
    (derives : ∀ matcher ∈ any, ∃ found, Derives .conjunction matcher.written found) :
    ∃ found, Derives .conjunction (gathered any).written found := by
  unfold gathered
  split
  · exact derives _ (List.mem_singleton_self _)
  · choose! found derives using derives
    rw [Matcher.written, Matcher.writtens_eq_map]
    exact ⟨_, .one (.grouped (Matcher.derives_bars present derives))⟩

theorem Derives.readable {form : Form} {tokens : List Token} {found : List Matcher}
    (derives : Derives form tokens found) :
    ∀ matcher ∈ found, ∃ all, Derives .conjunction matcher.written all := by
  induction derives with
  | negated _ _ ih =>
    simp only [List.forall_mem_singleton] at ih ⊢
    obtain ⟨_, derives⟩ := ih
    exact derives.negate
  | grouped derived ih => simpa using exists_derives_gathered derived.found_ne_nil ih
  | chain name names => simpa using ⟨_, .one (.chain name names)⟩
  | one _ ih => exact ih
  | more _ _ _ ih ihRest =>
    exact List.forall_mem_cons.mpr ⟨ih _ (List.mem_singleton_self _), ihRest⟩
  | last derived _ ih => simpa using exists_derives_joined derived.found_ne_nil ih
  | parted derived _ _ _ ih ihRest =>
    exact List.forall_mem_cons.mpr ⟨exists_derives_joined derived.found_ne_nil ih, ihRest⟩

theorem parse_text {matcher : Matcher} {all : List Matcher}
    (named : ∀ atom ∈ matcher.atoms, IsName atom)
    (derives : Derives .conjunction matcher.written all) :
    parse matcher.text = .ok ⟨matcher.text, [alternative .normal (joined all)]⟩ :=
  parse_eq_ok_iff.mpr ⟨rfl, _, matcher.tokens_text named, .one (.plain derives)⟩

/-- The text of a matcher that was read is read again, as one alternative. It has the same matcher
just when the matcher is legible. -/
theorem text_reads_back {source : String} {selector : Selector}
    (read : parse source = .ok selector) {alternative : Alternative}
    (member : alternative ∈ selector.alternatives) : ∃ again,
      parse alternative.matcher.text = .ok ⟨alternative.matcher.text, [again]⟩ ∧
        (again.matcher = alternative.matcher ↔ alternative.matcher.isLegible = true) := by
  have named := isName_of_parse read member
  obtain ⟨-, tokens, -, derives⟩ := parse_eq_ok_iff.mp read
  obtain ⟨used, -, written⟩ := derives.written member
  obtain ⟨found, conjunction, rfl⟩ := derivesAlternative_iff.mp written
  obtain ⟨all, readable⟩ := exists_derives_joined conjunction.found_ne_nil conjunction.readable
  have again := parse_text named readable
  refine ⟨_, again, fun same => Matcher.isLegible_of_derives readable same, fun legible => ?_⟩
  obtain ⟨others, derived, same⟩ := Matcher.derives_written _ legible
  have unique := again.symm.trans (parse_text named derived)
  simp only [Except.ok.injEq, Selector.mk.injEq, List.cons.injEq] at unique
  exact (congrArg (·.matcher) unique.2.1).trans same

theorem text_reads_back_nested : ∃ again,
    parse "-(a b | -(c | d)) e" = .ok ⟨"-(a b | -(c | d)) e", [again]⟩ ∧ again.matcher = .and
      [.not (.or [.path ["a", "b"], .not (.or [.path ["c"], .path ["d"]])]), .path ["e"]] := by
  have read : parse "!(a b, !(c, d)) e" = .ok ⟨"!(a b, !(c, d)) e", [⟨.and
      [.not (.or [.path ["a", "b"], .not (.or [.path ["c"], .path ["d"]])]), .path ["e"]],
      .low⟩]⟩ := by cbv
  obtain ⟨again, spelled, same⟩ := text_reads_back read (List.mem_singleton_self _)
  exact ⟨again, spelled, same.mpr rfl⟩

theorem text_reads_back_unbracketed :
    ∃ selector, parse "-(a -b)" = .ok selector ∧ ∃ alternative ∈ selector.alternatives,
      ¬ ∃ again, parse alternative.matcher.text = .ok ⟨alternative.matcher.text, [again]⟩ ∧
        again.matcher = alternative.matcher := by
  refine ⟨⟨"-(a -b)", [⟨.not (.and [.path ["a"], .not (.path ["b"])]), .low⟩]⟩, by cbv, _,
    List.mem_singleton_self _, ?_⟩
  rintro ⟨again, read, same⟩
  have other : parse "-a -b" =
      .ok ⟨"-a -b", [⟨.and [.not (.path ["a"]), .not (.path ["b"])], .low⟩]⟩ := by cbv
  cases other.symm.trans read
  cases same

end Selector

end Highlighter
