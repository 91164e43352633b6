import Highlighter.Proofs.Selector.Derivation

set_option autoImplicit false

namespace Highlighter

namespace Matcher

mutual

def atoms : Matcher → List String
  | .path atoms => atoms
  | .not inner => atoms inner
  | .and all => atomsOf all
  | .or any => atomsOf any

def atomsOf : List Matcher → List String
  | [] => []
  | matcher :: rest => atoms matcher ++ atomsOf rest

end

mutual

def negations : Matcher → Nat
  | .path _ => 0
  | .not inner => negations inner + 1
  | .and all => negationsOf all
  | .or any => negationsOf any

def negationsOf : List Matcher → Nat
  | [] => 0
  | matcher :: rest => negations matcher + negationsOf rest

end

end Matcher

namespace Selector

def Token.name? : Token → Option String
  | .identifier name => some name
  | _ => none

def outerSeparators (depth : Nat) : List Token → Nat
  | [] => 0
  | .opening :: rest => outerSeparators (depth + 1) rest
  | .closing :: rest => outerSeparators (depth - 1) rest
  | token :: rest =>
    (if token.isSeparator && depth == 0 then 1 else 0) + outerSeparators depth rest

inductive Spells : List Char → List Token → Prop
  | blank {gap : List Char} (blank : ∀ c ∈ gap, Text.isSpace c = true) : Spells gap []
  | token {gap cs : List Char} {tokens : List Token} (blank : ∀ c ∈ gap, Text.isSpace c = true)
    (token : Token) (rest : Spells cs tokens) :
    Spells (gap ++ (token.text.toList ++ cs)) (token :: tokens)

section

variable {form : Form} {tokens : List Token} {found : List Matcher}

theorem atoms_joined (all : List Matcher) : (joined all).atoms = Matcher.atomsOf all := by
  unfold joined
  split <;> simp [Matcher.atoms, Matcher.atomsOf]

theorem atoms_gathered (any : List Matcher) : (gathered any).atoms = Matcher.atomsOf any := by
  unfold gathered
  split <;> simp [Matcher.atoms, Matcher.atomsOf]

theorem negations_joined (all : List Matcher) :
    (joined all).negations = Matcher.negationsOf all := by
  unfold joined
  split <;> simp [Matcher.negations, Matcher.negationsOf]

theorem negations_gathered (any : List Matcher) :
    (gathered any).negations = Matcher.negationsOf any := by
  unfold gathered
  split <;> simp [Matcher.negations, Matcher.negationsOf]

theorem names_separators (part : ∀ token ∈ tokens, token.isSeparator = true) :
    tokens.filterMap (·.name?) = [] := by
  refine List.filterMap_eq_nil_iff.mpr fun token member => ?_
  have parts := part token member
  cases token <;> simp_all [Token.isSeparator, Token.name?]

theorem signs_separators (part : ∀ token ∈ tokens, token.isSeparator = true) :
    tokens.countP (·.isSign) = 0 := by
  refine List.countP_eq_zero.mpr fun token member => ?_
  have parts := part token member
  cases token <;> simp_all [Token.isSeparator, Token.isSign]

theorem Derives.atoms (derives : Derives form tokens found) :
    Matcher.atomsOf found = tokens.filterMap (·.name?) := by
  induction derives with
  | @negated sign _ _ negates _ ih =>
    cases sign <;> simp_all [Matcher.atoms, Matcher.atomsOf, Token.name?, Token.isSign]
  | grouped _ ih =>
    simp [Matcher.atomsOf, atoms_gathered, ih, Token.name?]
  | chain name names =>
    simp [Matcher.atoms, Matcher.atomsOf, Token.name?, List.filterMap_map]
  | one _ ih => exact ih
  | more _ _ _ ih ihRest => simp_all [Matcher.atomsOf]
  | last _ part ih => simp [Matcher.atomsOf, atoms_joined, ih, names_separators part]
  | parted _ _ part _ ih ihRest =>
    simp [Matcher.atomsOf, atoms_joined, ih, ihRest, names_separators part]

theorem Derives.negations (derives : Derives form tokens found) :
    Matcher.negationsOf found = tokens.countP (·.isSign) := by
  induction derives with
  | @negated sign _ _ negates _ ih => simp_all [Matcher.negations, Matcher.negationsOf]
  | grouped _ ih => simp [Matcher.negationsOf, negations_gathered, ih, Token.isSign]
  | chain name names =>
    simp [Matcher.negations, Matcher.negationsOf, Token.isSign, List.countP_map, Function.comp_def]
  | one _ ih => exact ih
  | more _ _ _ ih ihRest => simp_all [Matcher.negationsOf]
  | last _ part ih => simp [Matcher.negationsOf, negations_joined, ih, signs_separators part]
  | parted _ _ part _ ih ihRest =>
    simp [Matcher.negationsOf, negations_joined, ih, ihRest, signs_separators part]

theorem outerSeparators_group {separators : List Token}
    (part : ∀ token ∈ separators, token.isSeparator = true) (depth : Nat) (rest : List Token) :
    outerSeparators (depth + 1) (separators ++ rest) = outerSeparators (depth + 1) rest := by
  induction separators with
  | nil => rfl
  | cons separator separators ih =>
    have parts := part separator List.mem_cons_self
    have rest := ih fun token member => part token (List.mem_cons_of_mem _ member)
    cases separator <;> simp_all [outerSeparators, Token.isSeparator]

theorem outerSeparators_names (names : List String) (depth : Nat) (rest : List Token) :
    outerSeparators depth (names.map .identifier ++ rest) = outerSeparators depth rest := by
  induction names with
  | nil => rfl
  | cons name names ih => simp [outerSeparators, Token.isSeparator, ih]

theorem Derives.outerSeparators (derives : Derives form tokens found) (depth : Nat)
    (inside : form = .group → 0 < depth) (rest : List Token) :
    outerSeparators depth (tokens ++ rest) = Selector.outerSeparators depth rest := by
  induction derives generalizing depth rest with
  | @negated sign _ _ negates _ ih =>
    have inner := ih depth (by simp) rest
    cases sign <;> simp_all [Selector.outerSeparators, Token.isSign, Token.isSeparator]
  | grouped _ ih =>
    have inner := ih (depth + 1) (fun _ => Nat.succ_pos _) (.closing :: rest)
    simpa [Selector.outerSeparators] using inner
  | chain name names => exact outerSeparators_names (name :: names) depth rest
  | one _ ih => exact ih depth (by simp) rest
  | more _ _ _ ih ihRest =>
    rw [List.append_assoc, ih depth (by simp), ihRest depth (by simp)]
  | last _ part ih =>
    obtain ⟨outer, rfl⟩ := Nat.exists_eq_succ_of_ne_zero (inside rfl).ne'
    rw [List.append_assoc, ih _ (by simp), outerSeparators_group part]
  | parted _ _ part _ ih ihRest =>
    obtain ⟨outer, rfl⟩ := Nat.exists_eq_succ_of_ne_zero (inside rfl).ne'
    rw [List.append_assoc, List.append_assoc, ih _ (by simp), outerSeparators_group part,
      ihRest _ inside]

end

section

variable {tokens : List Token} {only : Alternative} {all : List Alternative}

theorem DerivesAlternative.atoms (derives : DerivesAlternative tokens only) :
    only.matcher.atoms = tokens.filterMap (·.name?) := by
  cases derives with
  | plain conjunction | left conjunction | right conjunction =>
    exact (atoms_joined _).trans conjunction.atoms

theorem DerivesAlternative.negations (derives : DerivesAlternative tokens only) :
    only.matcher.negations = tokens.countP (·.isSign) := by
  cases derives with
  | plain conjunction | left conjunction | right conjunction =>
    exact (negations_joined _).trans conjunction.negations

theorem DerivesAlternative.outerSeparators (derives : DerivesAlternative tokens only)
    (rest : List Token) :
    Selector.outerSeparators 0 (tokens ++ rest) = Selector.outerSeparators 0 rest := by
  cases derives with
  | plain conjunction => exact conjunction.outerSeparators 0 nofun rest
  | left conjunction | right conjunction =>
    exact (Nat.zero_add _).trans (conjunction.outerSeparators 0 nofun rest)

theorem DerivesList.atoms (derives : DerivesList tokens all) :
    all.flatMap (·.matcher.atoms) = tokens.filterMap (·.name?) := by
  induction derives with
  | one derived => simp [derived.atoms]
  | @more _ _ separator _ _ derived parts _ ih =>
    have bare : separator.name? = none := by
      cases separator <;> simp_all [Token.isSeparator, Token.name?]
    simp [derived.atoms, ih, bare]

theorem DerivesList.negations (derives : DerivesList tokens all) :
    (all.map (·.matcher.negations)).sum = tokens.countP (·.isSign) := by
  induction derives with
  | one derived => simp [derived.negations]
  | @more _ _ separator _ _ derived parts _ ih =>
    have bare : separator.isSign = false := by
      cases separator <;> simp_all [Token.isSeparator, Token.isSign]
    simp [derived.negations, ih, bare]

theorem DerivesList.length (derives : DerivesList tokens all) :
    all.length = outerSeparators 0 tokens + 1 := by
  induction derives with
  | @one tokens _ derived =>
    have none := derived.outerSeparators []
    rw [List.append_nil] at none
    rw [none]
    rfl
  | @more _ others separator _ _ derived parts _ ih =>
    have counted : outerSeparators 0 (separator :: others) = 1 + outerSeparators 0 others := by
      cases separator <;> simp_all [outerSeparators, Token.isSeparator]
    rw [List.length_cons, derived.outerSeparators, counted, ih, Nat.add_comm 1]

end

theorem token?_eq_append {cs rest : List Char} {token : Token}
    (found : token? cs = some (token, rest)) : cs = token.text.toList ++ rest := by
  unfold token? at found
  split at found
  · exact nomatch found
  · cases found
    rfl
  · cases found
    rfl
  · rename_i c tail _ _
    split at found
    · cases found
      simp [Token.text, List.takeWhile_append_dropWhile]
    · obtain ⟨token, known, same⟩ := Option.map_eq_some_iff.mp found
      cases same
      unfold punctuation? at known
      split at known <;> cases known <;> rfl

theorem isSpace_of_no_word {gap : List Char}
    (none : (Text.words Text.isSpace gap).head?.map String.ofList = none) :
    ∀ c ∈ gap, Text.isSpace c = true := by
  intro c member
  by_contra solid
  refine Text.wordsFrom_ne_nil Text.isSpace [] gap (.inr ⟨c, member, by simpa using solid⟩) ?_
  exact List.head?_eq_none_iff.mp (Option.map_eq_none_iff.mp none)

theorem spells_tokensFrom {gap cs : List Char} {found : List Token}
    (read : tokensFrom gap cs = .ok found) : Spells (gap.reverse ++ cs) found := by
  induction size : cs.length using Nat.strong_induction_on generalizing gap cs found with
  | _ size ih =>
    subst size
    unfold tokensFrom at read
    dsimp only at read
    split at read
    · rename_i token rest known
      split at read
      · cases read
      · rename_i blank
        cases next : tokensFrom [] rest with
        | error stray => simp [next, Except.map] at read
        | ok others =>
          simp only [next, Except.map, Except.ok.injEq] at read
          rw [← read, token?_eq_append known]
          exact .token (isSpace_of_no_word blank) token (ih _ (token?_shorter known) next rfl)
    · split at read
      · split at read
        · cases read
        · rename_i blank
          rw [← Except.ok.inj read, List.append_nil]
          exact .blank (isSpace_of_no_word blank)
      · rename_i c rest _ _
        have longer := ih rest.length (Nat.lt_succ_self _) read rfl
        simpa using longer

/-- Reading accepts the token sequences that the grammar derives, with the matchers that it derives
for them. A text that is read is spelled by its tokens; the atoms are the names among them, in order,
each sign is one negation, and there is one alternative more than there are outer separators. -/
theorem parse_exact (source : String) :
    (∀ (found : List Token) (all : List Alternative),
      readAlternatives source found = .ok all ↔ DerivesList found all) ∧
      ∀ selector, parse source = .ok selector → ∃ found, tokens source = .ok found ∧
        Spells source.toList found ∧ DerivesList found selector.alternatives ∧
        selector.alternatives.flatMap (·.matcher.atoms) = found.filterMap (·.name?) ∧
        (selector.alternatives.map (·.matcher.negations)).sum = found.countP (·.isSign) ∧
        selector.alternatives.length = outerSeparators 0 found + 1 := by
  refine ⟨fun found all => readAlternatives_iff, fun selector read => ?_⟩
  unfold parse at read
  cases spelled : tokens source with
  | error stray => simp [spelled] at read
  | ok found =>
    cases derived : readAlternatives source found with
    | error error => simp [spelled, derived, Except.map] at read
    | ok all =>
      simp only [spelled, derived, Except.map, Except.ok.injEq] at read
      have derives : DerivesList found all := readAlternatives_iff.mp derived
      refine ⟨found, rfl, @spells_tokensFrom [] _ _ spelled, ?_⟩
      rw [← read]
      exact ⟨derives, derives.atoms, derives.negations, derives.length⟩

def nested : Selector :=
  ⟨" L:a.b -(c d|,!e ,) f,g",
    [⟨.and [.path ["a.b"], .not (.or [.path ["c", "d"], .not (.path ["e"])]), .path ["f"]], .low⟩,
      ⟨.path ["g"], .normal⟩]⟩

theorem nested_tokens : tokens nested.source = .ok [.left, .identifier "a.b", .minus, .opening,
    .identifier "c", .identifier "d", .bar, .comma, .bang, .identifier "e", .comma, .closing,
    .identifier "f", .comma, .identifier "g"] := by cbv

theorem nested_parse : parse nested.source = .ok nested := by cbv

theorem parse_exact_nested :
    nested.alternatives.flatMap (·.matcher.atoms) = ["a.b", "c", "d", "e", "f", "g"] ∧
      (nested.alternatives.map (·.matcher.negations)).sum = 2 ∧
      nested.alternatives.length = 2 := by
  obtain ⟨found, spelled, _, _, atoms, negations, length⟩ :=
    (parse_exact nested.source).2 nested nested_parse
  obtain rfl := Except.ok.inj (nested_tokens.symm.trans spelled)
  exact ⟨atoms, negations, length⟩

end Selector

end Highlighter
