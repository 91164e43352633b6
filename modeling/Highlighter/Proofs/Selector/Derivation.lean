import Highlighter.Selector.Parser
import Mathlib

set_option autoImplicit false

namespace Highlighter.Selector

namespace Token

def isName : Token → Bool
  | .identifier _ => true
  | _ => false

def isSign : Token → Bool
  | .minus | .bang => true
  | _ => false

def startsOperand : Token → Bool
  | .identifier _ | .minus | .bang | .opening => true
  | _ => false

end Token

def gathered : List Matcher → Matcher
  | [matcher] => matcher
  | any => .or any

/-- The parts of an alternative. -/
inductive Form where
  | operand
  | conjunction
  | group

/-- The tokens are such a part, which holds the matchers: an operand has one, a conjunction one for
each operand and a group one for each conjunction. A chain of names is as long as it can be. -/
inductive Derives : Form → List Token → List Matcher → Prop
  | negated {sign : Token} {tokens : List Token} {inner : Matcher} (negates : sign.isSign = true)
    (operand : Derives .operand tokens [inner]) : Derives .operand (sign :: tokens) [.not inner]
  | grouped {tokens : List Token} {any : List Matcher} (group : Derives .group tokens any) :
    Derives .operand (.opening :: (tokens ++ [.closing])) [gathered any]
  | chain (name : String) (names : List String) :
    Derives .operand ((name :: names).map .identifier) [.path (name :: names)]
  | one {tokens : List Token} {matcher : Matcher} (operand : Derives .operand tokens [matcher]) :
    Derives .conjunction tokens [matcher]
  | more {tokens others : List Token} {first : Matcher} {rest : List Matcher}
    (operand : Derives .operand tokens [first]) (conjunction : Derives .conjunction others rest)
    (longest : tokens.getLast?.any (·.isName) = true → others.head?.any (·.isName) = false) :
    Derives .conjunction (tokens ++ others) (first :: rest)
  | last {tokens separators : List Token} {all : List Matcher}
    (conjunction : Derives .conjunction tokens all)
    (part : ∀ token ∈ separators, token.isSeparator = true) :
    Derives .group (tokens ++ separators) [joined all]
  | parted {tokens separators others : List Token} {all any : List Matcher}
    (conjunction : Derives .conjunction tokens all) (apart : separators ≠ [])
    (part : ∀ token ∈ separators, token.isSeparator = true) (group : Derives .group others any) :
    Derives .group (tokens ++ (separators ++ others)) (joined all :: any)

inductive DerivesAlternative : List Token → Alternative → Prop
  | plain {tokens : List Token} {all : List Matcher} (conjunction : Derives .conjunction tokens all) :
    DerivesAlternative tokens (alternative .normal (joined all))
  | left {tokens : List Token} {all : List Matcher} (conjunction : Derives .conjunction tokens all) :
    DerivesAlternative (.left :: tokens) (alternative .low (joined all))
  | right {tokens : List Token} {all : List Matcher}
    (conjunction : Derives .conjunction tokens all) :
    DerivesAlternative (.right :: tokens) (alternative .high (joined all))

inductive DerivesList : List Token → List Alternative → Prop
  | one {tokens : List Token} {only : Alternative} (alternative : DerivesAlternative tokens only) :
    DerivesList tokens [only]
  | more {tokens others : List Token} {separator : Token} {first : Alternative}
    {rest : List Alternative} (alternative : DerivesAlternative tokens first)
    (parts : separator.isSeparator = true) (list : DerivesList others rest) :
    DerivesList (tokens ++ separator :: others) (first :: rest)

def WrittenIn (used whole : List Token) : Prop :=
  ∃ front back, whole = front ++ used ++ back ∧
    (∀ token ∈ front.getLast?, token.isSeparator = true) ∧
    ∀ token ∈ back.head?, token.isSeparator = true

def Stops : Form → List Token → List Token → Prop
  | .operand, tokens, rest =>
    tokens.getLast?.any (·.isName) = true → rest.head?.any (·.isName) = false
  | .conjunction, _, rest => rest.head?.any (·.startsOperand) = false
  | .group, _, rest =>
    rest.head?.any (·.startsOperand) = false ∧ rest.head?.any (·.isSeparator) = false

def Finds (source : String) : Form → List Token → Prop
  | .operand, tokens =>
    (operand source tokens = .ok none → tokens.head?.any (·.startsOperand) = false) ∧
      ∀ matcher rest shorter, operand source tokens = .ok (some ⟨matcher, rest, shorter⟩) →
        ∃ used, tokens = used ++ rest ∧ Derives .operand used [matcher] ∧ Stops .operand used rest
  | .conjunction, tokens =>
    ∀ found rest within, conjunction source tokens = .ok ⟨found, rest, within⟩ →
      rest.head?.any (·.startsOperand) = false ∧ (found = [] ∧ rest = tokens ∨
        ∃ used, tokens = used ++ rest ∧ Derives .conjunction used found)
  | .group, tokens =>
    ∀ found rest within, group source tokens = .ok ⟨found, rest, within⟩ →
      rest.head?.any (·.startsOperand) = false ∧ (found = [] ∧ rest = tokens ∨
        ∃ used, tokens = used ++ rest ∧ Derives .group used found ∧
          rest.head?.any (·.isSeparator) = false)

def Reads (source : String) : Form → List Token → List Matcher → List Token → Prop
  | .operand, tokens, found, rest => ∃ matcher shorter,
      found = [matcher] ∧ operand source tokens = .ok (some ⟨matcher, rest, shorter⟩)
  | .conjunction, tokens, found, rest => ∃ within,
      conjunction source tokens = .ok ⟨found, rest, within⟩
  | .group, tokens, found, rest => ∃ within, group source tokens = .ok ⟨found, rest, within⟩

section

variable {source : String} {form : Form} {tokens rest : List Token} {found : List Matcher}

theorem Token.startsOperand_of_isName {token : Token} (name : token.isName = true) :
    token.startsOperand = true := by
  cases token <;> simp_all [Token.isName, Token.startsOperand]

theorem Token.not_isSeparator_of_startsOperand {token : Token} (starts : token.startsOperand = true) :
    token.isSeparator = false := by
  cases token <;> simp_all [Token.startsOperand, Token.isSeparator]

theorem Token.not_startsOperand_of_isSeparator {token : Token} (parts : token.isSeparator = true) :
    token.startsOperand = false := by
  cases token <;> simp_all [Token.startsOperand, Token.isSeparator]

theorem not_isName_of_not_startsOperand (stops : tokens.head?.any (·.startsOperand) = false) :
    tokens.head?.any (·.isName) = false := by
  cases tokens with
  | nil => rfl
  | cons token rest =>
    by_contra name
    have name : token.isName = true := by simpa using name
    simp [Token.startsOperand_of_isName name] at stops

theorem Derives.head (derives : Derives form tokens found) :
    ∃ token rest, tokens = token :: rest ∧ token.startsOperand = true := by
  induction derives with
  | @negated sign tokens _ negates _ _ =>
    refine ⟨sign, tokens, rfl, ?_⟩
    cases sign <;> simp_all [Token.isSign, Token.startsOperand]
  | grouped _ _ => exact ⟨_, _, rfl, rfl⟩
  | chain name names => exact ⟨_, _, rfl, rfl⟩
  | one _ ih => exact ih
  | more _ _ _ ih _ | last _ _ ih | parted _ _ _ _ ih _ =>
    obtain ⟨token, rest, rfl, starts⟩ := ih
    exact ⟨token, _, rfl, starts⟩

theorem Derives.ne_nil (derives : Derives form tokens found) : tokens ≠ [] := by
  obtain ⟨_, _, rfl, _⟩ := derives.head
  exact List.cons_ne_nil _ _

theorem Derives.found_ne_nil (derives : Derives form tokens found) : found ≠ [] := by
  cases derives <;> exact List.cons_ne_nil _ _

theorem operand_none (stops : tokens.head?.any (·.startsOperand) = false) :
    operand source tokens = .ok none := by
  cases tokens with
  | nil => unfold operand; rfl
  | cons token rest =>
    unfold operand
    cases token <;> simp_all [Token.startsOperand]

theorem conjunction_none (stops : tokens.head?.any (·.startsOperand) = false) :
    conjunction source tokens = .ok ⟨[], tokens, le_rfl⟩ := by
  unfold conjunction
  rw [operand_none stops]

theorem group_none (stops : tokens.head?.any (·.startsOperand) = false) :
    group source tokens = .ok ⟨[], tokens, le_rfl⟩ := by
  unfold group
  rw [conjunction_none stops]

theorem group_end (present : found ≠ []) (stops : rest.head?.any (·.isSeparator) = false)
    (read : Reads source .conjunction tokens found rest) :
    Reads source .group tokens [joined found] rest := by
  obtain ⟨within, read⟩ := read
  obtain ⟨first, others, rfl⟩ := List.exists_cons_of_ne_nil present
  refine ⟨within, ?_⟩
  unfold group
  cases rest with
  | nil => simp only [read]
  | cons token rest =>
    have here : token.isSeparator = false := by simpa using stops
    simp [read, here]

theorem group_next {separator : Token} {more after : List Token} {any : List Matcher}
    (present : found ≠ []) (parts : separator.isSeparator = true)
    (read : Reads source .conjunction tokens found (separator :: more))
    (next : Reads source .group (afterSeparators more) any after) :
    Reads source .group tokens (joined found :: any) after := by
  obtain ⟨within, read⟩ := read
  obtain ⟨less, next⟩ := next
  obtain ⟨first, others, rfl⟩ := List.exists_cons_of_ne_nil present
  have fewer := afterSeparators_length more
  refine ⟨by simp at within; omega, ?_⟩
  unfold group
  simp [read, parts, next]

theorem chain_map (names : List String) (stops : rest.head?.any (·.isName) = false) :
    chain (names.map .identifier ++ rest) = (names, rest) := by
  induction names with
  | nil =>
    cases rest with
    | nil => rfl
    | cons token rest => cases token <;> simp_all [chain, Token.isName]
  | cons name names ih => simp only [List.map_cons, List.cons_append, chain, ih]

theorem afterSeparators_append {separators : List Token}
    (part : ∀ token ∈ separators, token.isSeparator = true)
    (stops : rest.head?.any (·.isSeparator) = false) :
    afterSeparators (separators ++ rest) = rest := by
  induction separators with
  | nil =>
    cases rest with
    | nil => rfl
    | cons token rest =>
      have here : token.isSeparator = false := by simpa using stops
      simp [afterSeparators, here]
  | cons separator separators ih =>
    rw [List.cons_append, afterSeparators, if_pos (part separator List.mem_cons_self)]
    exact ih fun token member => part token (List.mem_cons_of_mem _ member)

theorem chain_split (tokens : List Token) :
    tokens = (chain tokens).1.map .identifier ++ (chain tokens).2 ∧
      (chain tokens).2.head?.any (·.isName) = false := by
  induction tokens with
  | nil => exact ⟨rfl, rfl⟩
  | cons token rest ih =>
    cases token with
    | identifier name => exact ⟨congrArg (Token.identifier name :: ·) ih.1, ih.2⟩
    | _ => exact ⟨rfl, rfl⟩

theorem afterSeparators_split (tokens : List Token) :
    ∃ separators, tokens = separators ++ afterSeparators tokens ∧
      (∀ token ∈ separators, token.isSeparator = true) ∧
      (afterSeparators tokens).head?.any (·.isSeparator) = false := by
  induction tokens with
  | nil => exact ⟨[], rfl, by simp, rfl⟩
  | cons token rest ih =>
    unfold afterSeparators
    split
    · rename_i parts
      obtain ⟨separators, whole, part, stops⟩ := ih
      refine ⟨token :: separators, congrArg (token :: ·) whole, ?_, stops⟩
      simpa using ⟨parts, part⟩
    · rename_i other
      exact ⟨[], rfl, by simp, by simpa using other⟩

theorem operand_sign (source : String) {sign : Token} (negates : sign.isSign = true)
    (others : List Token) :
    operand source (sign :: others) ≠ .ok none ∧
      ∀ matcher rest shorter, operand source (sign :: others) = .ok (some ⟨matcher, rest, shorter⟩) →
        ∃ inner fewer, matcher = .not inner ∧
          operand source others = .ok (some ⟨inner, rest, fewer⟩) := by
  rcases read : operand source others with error | _ | inner
  · have failed : operand source (sign :: others) = .error error := by
      cases sign <;> simp_all [operand, Token.isSign]
    simp [failed]
  · have failed : operand source (sign :: others) = .error (missingOperand source others) := by
      cases sign <;> simp_all [operand, Token.isSign]
    simp [failed]
  · have taken : operand source (sign :: others) =
        .ok (some ⟨.not inner.value, inner.rest, Nat.lt_succ_of_lt inner.shorter⟩) := by
      cases sign <;> simp_all [operand, Token.isSign]
    refine ⟨by simp [taken], fun matcher rest shorter found => ?_⟩
    rw [taken] at found
    cases found
    exact ⟨_, inner.shorter, rfl, rfl⟩

theorem operand_opening (source : String) (others : List Token) :
    operand source (.opening :: others) ≠ .ok none ∧
      ∀ matcher rest shorter,
        operand source (.opening :: others) = .ok (some ⟨matcher, rest, shorter⟩) →
          ∃ any within, any ≠ [] ∧ matcher = gathered any ∧
            group source others = .ok ⟨any, .closing :: rest, within⟩ := by
  unfold operand
  cases group source others with
  | error error => simp
  | ok left =>
    obtain ⟨any, after, within⟩ := left
    cases any with
    | nil => simp
    | cons first more =>
      cases after with
      | nil => simp
      | cons token after =>
        cases token with
        | closing =>
          refine ⟨nofun, fun matcher rest shorter read => ?_⟩
          cases read
          refine ⟨_, within, List.cons_ne_nil _ _, ?_, rfl⟩
          cases more <;> rfl
        | _ => simp

theorem operand_finds
    (shorter : ∀ less : List Token, less.length < tokens.length →
      Finds source .operand less ∧ Finds source .group less) : Finds source .operand tokens := by
  cases tokens with
  | nil =>
    unfold Finds operand
    simp
  | cons token others =>
    have less : others.length < (token :: others).length := Nat.lt_succ_self _
    have signed (negates : token.isSign = true) : Finds source .operand (token :: others) := by
      obtain ⟨taken, read⟩ := operand_sign source negates others
      refine ⟨fun none => absurd none taken, fun matcher rest fewer found => ?_⟩
      obtain ⟨inner, _, rfl, behind⟩ := read matcher rest fewer found
      obtain ⟨used, rfl, derives, stops⟩ := (shorter others less).1.2 _ _ _ behind
      refine ⟨token :: used, rfl, .negated negates derives, ?_⟩
      obtain ⟨first, more, rfl, _⟩ := derives.head
      exact stops
    cases token with
    | minus => exact signed rfl
    | bang => exact signed rfl
    | opening =>
      obtain ⟨taken, read⟩ := operand_opening source others
      refine ⟨fun none => absurd none taken, fun matcher rest fewer found => ?_⟩
      obtain ⟨any, _, present, rfl, behind⟩ := read matcher rest fewer found
      obtain ⟨_, ⟨bare, _⟩ | ⟨used, rfl, derives, _⟩⟩ := (shorter others less).2 _ _ _ behind
      · exact absurd bare present
      · refine ⟨.opening :: (used ++ [.closing]), by simp, .grouped derives, ?_⟩
        simp [Stops, List.getLast?_cons, Token.isName]
    | identifier name =>
      refine ⟨fun none => ?_, fun matcher rest fewer found => ?_⟩
      · unfold operand at none
        cases none
      · unfold operand at found
        cases found
        obtain ⟨whole, stops⟩ := chain_split others
        exact ⟨_, congrArg (Token.identifier name :: ·) whole, .chain name _, fun _ => stops⟩
    | _ =>
      unfold Finds operand
      simp [Token.startsOperand]

theorem conjunction_finds (here : Finds source .operand tokens)
    (shorter : ∀ less : List Token, less.length < tokens.length → Finds source .conjunction less) :
    Finds source .conjunction tokens := by
  intro found rest within read
  unfold conjunction at read
  cases inner : operand source tokens with
  | error error => simp [inner] at read
  | ok taken =>
    cases taken with
    | none =>
      simp only [inner] at read
      cases read
      exact ⟨here.1 inner, .inl ⟨rfl, rfl⟩⟩
    | some taken =>
      obtain ⟨first, after, less⟩ := taken
      obtain ⟨used, whole, derives, stops⟩ := here.2 _ _ _ inner
      cases next : conjunction source after with
      | error error => simp [inner, next] at read
      | ok left =>
        obtain ⟨others, last, fewer⟩ := left
        simp only [inner, next] at read
        cases read
        obtain ⟨ends, ⟨rfl, rfl⟩ | ⟨more, rfl, derivesRest⟩⟩ := shorter after less _ _ _ next
        · exact ⟨ends, .inr ⟨used, whole, .one derives⟩⟩
        · refine ⟨ends, .inr ⟨used ++ more, by simpa using whole, .more derives derivesRest ?_⟩⟩
          obtain ⟨token, _, rfl, _⟩ := derivesRest.head
          exact stops

theorem group_finds (here : Finds source .conjunction tokens)
    (shorter : ∀ less : List Token, less.length < tokens.length → Finds source .group less) :
    Finds source .group tokens := by
  intro found rest within read
  unfold group at read
  cases inner : conjunction source tokens with
  | error error => simp [inner] at read
  | ok left =>
    obtain ⟨all, after, fewer⟩ := left
    obtain ⟨ends, ⟨rfl, rfl⟩ | ⟨used, whole, derives⟩⟩ := here _ _ _ inner
    · simp only [inner] at read
      cases read
      exact ⟨ends, .inl ⟨rfl, rfl⟩⟩
    · obtain ⟨first, others, rfl⟩ := List.exists_cons_of_ne_nil derives.found_ne_nil
      cases after with
      | nil =>
        simp only [inner] at read
        cases read
        exact ⟨ends, .inr ⟨used ++ [], by simpa using whole, .last derives (by simp), rfl⟩⟩
      | cons token after =>
        by_cases parts : token.isSeparator = true
        · cases next : group source (afterSeparators after) with
          | error error => simp [inner, parts, next] at read
          | ok left =>
            obtain ⟨any, last, _⟩ := left
            simp only [inner, parts, next, if_true] at read
            cases read
            obtain ⟨separators, split, part, apart⟩ := afterSeparators_split after
            have part : ∀ other ∈ token :: separators, other.isSeparator = true := by
              simpa using ⟨parts, part⟩
            have less : (afterSeparators after).length < tokens.length := by
              have := afterSeparators_length after
              simp at fewer
              omega
            obtain ⟨ends, ⟨rfl, rfl⟩ | ⟨more, rest, derivesRest, stops⟩⟩ :=
              shorter _ less _ _ _ next
            · refine ⟨ends, .inr ⟨used ++ (token :: separators), ?_, .last derives part, apart⟩⟩
              rw [whole, List.append_assoc, List.cons_append, ← split]
            · refine ⟨ends, .inr ⟨used ++ (token :: separators ++ more), ?_,
                .parted derives (List.cons_ne_nil _ _) part derivesRest, stops⟩⟩
              rw [whole, split, rest]
              simp
        · simp only [inner, parts] at read
          cases read
          exact ⟨ends, .inr ⟨used ++ [], by simpa using whole, .last derives (by simp), by
            simpa using parts⟩⟩

-- By the number of tokens, and for one number by the forms in the order in which they call one
-- another.
theorem finds (form : Form) (tokens : List Token) : Finds source form tokens := by
  induction size : tokens.length using Nat.strong_induction_on generalizing form tokens with
  | _ size ih =>
    subst size
    have shorter (form : Form) (less : List Token) (fewer : less.length < tokens.length) :
        Finds source form less := ih _ fewer form less rfl
    have operand : Finds source .operand tokens :=
      operand_finds fun less fewer => ⟨shorter _ less fewer, shorter _ less fewer⟩
    have conjunction : Finds source .conjunction tokens :=
      conjunction_finds operand (shorter .conjunction)
    cases form with
    | operand => exact operand
    | conjunction => exact conjunction
    | group => exact group_finds conjunction (shorter .group)

theorem Derives.reads (source : String) (derives : Derives form tokens found) {all rest : List Token}
    (whole : all = tokens ++ rest) (stops : Stops form tokens rest) :
    Reads source form all found rest := by
  induction derives generalizing all rest with
  | @negated sign tokens inner negates derived ih =>
    obtain rfl : all = sign :: (tokens ++ rest) := whole
    have inside : Stops .operand tokens rest := by
      obtain ⟨token, others, rfl, _⟩ := derived.head
      exact stops
    obtain ⟨_, shorter, same, read⟩ := ih rfl inside
    obtain rfl := List.singleton_inj.mp same
    refine ⟨_, Nat.lt_succ_of_lt shorter, rfl, ?_⟩
    unfold operand
    cases sign <;> simp_all [Token.isSign]
  | @grouped tokens any derived ih =>
    obtain rfl : all = .opening :: (tokens ++ .closing :: rest) := by simpa using whole
    obtain ⟨within, read⟩ := @ih _ (.closing :: rest) rfl ⟨rfl, rfl⟩
    obtain ⟨first, others, rfl⟩ := List.exists_cons_of_ne_nil derived.found_ne_nil
    refine ⟨_, Nat.lt_succ_of_lt within, rfl, ?_⟩
    unfold operand
    simp only [read]
    cases others <;> rfl
  | chain name names =>
    obtain rfl : all = .identifier name :: (names.map .identifier ++ rest) := by simpa using whole
    have apart : rest.head?.any (·.isName) = false := by
      refine stops ?_
      rw [List.getLast?_map, List.getLast?_eq_some_getLast (List.cons_ne_nil _ _)]
      rfl
    refine ⟨_, by simp, rfl, ?_⟩
    unfold operand
    simp only [chain_map names apart]
  | @one tokens matcher derived ih =>
    obtain ⟨_, shorter, same, read⟩ := ih whole fun _ => not_isName_of_not_startsOperand stops
    obtain rfl := List.singleton_inj.mp same
    refine ⟨shorter.le, ?_⟩
    unfold conjunction
    simp only [read, conjunction_none stops]
  | @more tokens others first found derived derivedRest longest ih ihRest =>
    -- No chain that ends the first operand goes on into the next one.
    have apart : Stops .operand tokens (others ++ rest) := by
      obtain ⟨token, _, rfl, _⟩ := derivedRest.head
      exact longest
    obtain ⟨_, shorter, same, read⟩ := ih (whole.trans (List.append_assoc _ _ _)) apart
    obtain rfl := List.singleton_inj.mp same
    obtain ⟨within, readRest⟩ := ihRest rfl stops
    refine ⟨within.trans shorter.le, ?_⟩
    unfold conjunction
    simp only [read, readRest]
  | @last tokens separators found derived part ih =>
    have present := derived.found_ne_nil
    have whole := whole.trans (List.append_assoc _ _ _)
    cases separators with
    | nil => exact group_end present stops.2 (ih whole stops.1)
    | cons separator more =>
      have parts := part separator List.mem_cons_self
      have skipped : afterSeparators (more ++ rest) = rest :=
        afterSeparators_append (fun token member => part token (List.mem_cons_of_mem _ member))
          stops.2
      refine group_next present parts (ih whole ?_) (skipped.symm ▸ ⟨_, group_none stops.1⟩)
      exact Token.not_startsOperand_of_isSeparator parts
  | @parted tokens separators others found any derived apart part derivedRest ih ihRest =>
    have present := derived.found_ne_nil
    obtain ⟨separator, more, rfl⟩ := List.exists_cons_of_ne_nil apart
    have parts := part separator List.mem_cons_self
    have whole : all = tokens ++ (separator :: (more ++ (others ++ rest))) := by
      simpa using whole
    have skipped : afterSeparators (more ++ (others ++ rest)) = others ++ rest := by
      refine afterSeparators_append
        (fun token member => part token (List.mem_cons_of_mem _ member)) ?_
      obtain ⟨token, _, rfl, starts⟩ := derivedRest.head
      exact Token.not_isSeparator_of_startsOperand starts
    refine group_next present parts (ih whole ?_) (skipped.symm ▸ ihRest rfl stops)
    exact Token.not_startsOperand_of_isSeparator parts

theorem derivesAlternative_iff {only : Alternative} :
    DerivesAlternative tokens only ↔ ∃ found, Derives .conjunction (side tokens).2 found ∧
      only = alternative (side tokens).1 (joined found) := by
  constructor
  · intro derives
    cases derives with
    | plain conjunction =>
      have bare : side tokens = (.normal, tokens) := by
        obtain ⟨token, rest, rfl, starts⟩ := conjunction.head
        cases token <;> simp_all [side, Token.startsOperand]
      rw [bare]
      exact ⟨_, conjunction, rfl⟩
    | left conjunction => exact ⟨_, conjunction, rfl⟩
    | right conjunction => exact ⟨_, conjunction, rfl⟩
  · rintro ⟨found, conjunction, rfl⟩
    unfold side at conjunction ⊢
    split at conjunction
    · exact .left conjunction
    · exact .right conjunction
    · exact .plain conjunction

theorem side_append (present : tokens ≠ []) (rest : List Token) :
    side (tokens ++ rest) = ((side tokens).1, (side tokens).2 ++ rest) := by
  obtain ⟨token, others, rfl⟩ := List.exists_cons_of_ne_nil present
  cases token <;> rfl

theorem DerivesAlternative.ne_nil {only : Alternative} (derives : DerivesAlternative tokens only) :
    tokens ≠ [] := by
  cases derives with
  | plain conjunction => exact conjunction.ne_nil
  | left _ | right _ => exact List.cons_ne_nil _ _

theorem DerivesList.reads {all : List Alternative} (derives : DerivesList tokens all) :
    readAlternatives source tokens = .ok all := by
  induction derives with
  | @one tokens only derived =>
    obtain ⟨found, conjunction, rfl⟩ := derivesAlternative_iff.mp derived
    obtain ⟨within, read⟩ := conjunction.reads source (List.append_nil _).symm rfl
    obtain ⟨first, others, rfl⟩ := List.exists_cons_of_ne_nil conjunction.found_ne_nil
    unfold readAlternatives
    simp only [read]
  | @more tokens others separator first rest derived parts _ ih =>
    have present : tokens ≠ [] := derived.ne_nil
    obtain ⟨found, conjunction, rfl⟩ := derivesAlternative_iff.mp derived
    have stops : Stops .conjunction (side tokens).2 (separator :: others) :=
      Token.not_startsOperand_of_isSeparator parts
    have whole : (side (tokens ++ separator :: others)).2 = (side tokens).2 ++ separator :: others := by
      rw [side_append present]
    obtain ⟨within, read⟩ := conjunction.reads source whole stops
    obtain ⟨one, more, rfl⟩ := List.exists_cons_of_ne_nil conjunction.found_ne_nil
    unfold readAlternatives
    simp [read, parts, ih, side_append present, Except.map]

theorem exists_alternative {used : List Token} (whole : (side tokens).2 = used ++ rest)
    (derives : Derives .conjunction used found) :
    ∃ front, tokens = front ++ rest ∧
      DerivesAlternative front (alternative (side tokens).1 (joined found)) := by
  unfold side at whole ⊢
  split at whole
  · exact ⟨.left :: used, congrArg (Token.left :: ·) whole, .left derives⟩
  · exact ⟨.right :: used, congrArg (Token.right :: ·) whole, .right derives⟩
  · exact ⟨used, whole, .plain derives⟩

theorem derivesList_of_reads {all : List Alternative}
    (read : readAlternatives source tokens = .ok all) : DerivesList tokens all := by
  induction size : tokens.length using Nat.strong_induction_on generalizing tokens all with
  | _ size ih =>
    subst size
    unfold readAlternatives at read
    cases inner : conjunction source (side tokens).2 with
    | error error => simp [inner] at read
    | ok left =>
      obtain ⟨found, rest, within⟩ := left
      obtain ⟨_, ⟨rfl, _⟩ | ⟨used, whole, derives⟩⟩ := finds .conjunction _ _ _ _ inner
      · simp [inner] at read
      · obtain ⟨first, others, rfl⟩ := List.exists_cons_of_ne_nil derives.found_ne_nil
        obtain ⟨front, same, derived⟩ := exists_alternative whole derives
        cases rest with
        | nil =>
          simp only [inner, Except.ok.injEq] at read
          obtain rfl : tokens = front := by simpa using same
          exact read ▸ .one derived
        | cons token rest =>
          simp only [inner] at read
          generalize alternative (side tokens).1 (joined (first :: others)) = one at read derived
          by_cases parts : token.isSeparator = true
          · cases next : readAlternatives source rest with
            | error error => simp [parts, next, Except.map] at read
            | ok more =>
              simp only [parts, next, Except.map, if_true, Except.ok.injEq] at read
              have less : rest.length < tokens.length := by rw [same]; simp; omega
              rw [← read, same]
              exact .more derived parts (ih _ less next rfl)
          · rw [if_neg parts] at read
            split at read <;> cases read

theorem readAlternatives_iff {all : List Alternative} :
    readAlternatives source tokens = .ok all ↔ DerivesList tokens all :=
  ⟨derivesList_of_reads, DerivesList.reads⟩

theorem parse_eq_ok_iff {selector : Selector} : parse source = .ok selector ↔
    selector.source = source ∧ ∃ found, Selector.tokens source = .ok found ∧
      DerivesList found selector.alternatives := by
  obtain ⟨whole, all⟩ := selector
  unfold parse
  cases spelled : Selector.tokens source with
  | error stray => simp
  | ok found =>
    simp only [Except.ok.injEq, exists_eq_left', ← @readAlternatives_iff source]
    cases readAlternatives source found <;> simp [Except.map, eq_comm]

theorem DerivesList.written {only : Alternative} {all : List Alternative}
    (derives : DerivesList tokens all) (member : only ∈ all) :
    ∃ used, WrittenIn used tokens ∧ DerivesAlternative used only := by
  induction derives with
  | @one tokens first derived =>
    obtain rfl := List.mem_singleton.mp member
    exact ⟨tokens, ⟨[], [], by simp, by simp, by simp⟩, derived⟩
  | @more tokens others separator first rest derived parts _ ih =>
    rcases List.mem_cons.mp member with rfl | later
    · exact ⟨tokens, ⟨[], separator :: others, by simp, by simp, by simpa using parts⟩, derived⟩
    · obtain ⟨used, ⟨front, back, rfl, before, behind⟩, derived⟩ := ih later
      refine ⟨used, ⟨tokens ++ separator :: front, back, by simp, ?_, behind⟩, derived⟩
      cases front with
      | nil => simpa using parts
      | cons token front => simpa using before

end

end Highlighter.Selector
