import Highlighter.Proofs.Selector.Parsing

set_option autoImplicit false

namespace Highlighter

namespace Matcher

open Selector (Token)

mutual

def written : Matcher → List Token
  | .path atoms => atoms.map .identifier
  | .not inner => .minus :: written inner
  | .and all => (writtens all).flatten
  | .or any => .opening :: ([.bar].intercalate (writtens any) ++ [.closing])

def writtens : List Matcher → List (List Token)
  | [] => []
  | matcher :: rest => written matcher :: writtens rest

end

theorem writtens_eq_map (matchers : List Matcher) : writtens matchers = matchers.map written := by
  induction matchers with
  | nil => rfl
  | cons matcher rest ih => rw [writtens, ih, List.map_cons]

theorem texts_eq_map (matchers : List Matcher) : texts matchers = matchers.map text := by
  induction matchers with
  | nil => rfl
  | cons matcher rest ih => rw [texts, ih, List.map_cons]

end Matcher

namespace Selector

def Halts (rest : List Char) : Prop := rest.head?.any continuesIdentifier = false

def IsName (name : String) : Prop :=
  ∀ rest, Halts rest → token? (name.toList ++ rest) = some (.identifier name, rest)

theorem takeWhile_append (cs : List Char) {rest : List Char} (halts : Halts rest) :
    (cs.takeWhile continuesIdentifier ++ rest).takeWhile continuesIdentifier =
        cs.takeWhile continuesIdentifier ∧
      (cs.takeWhile continuesIdentifier ++ rest).dropWhile continuesIdentifier = rest := by
  have inside : ∀ c ∈ cs.takeWhile continuesIdentifier, continuesIdentifier c = true :=
    fun _ => List.mem_takeWhile_imp
  rw [List.takeWhile_append_of_pos inside, List.dropWhile_append_of_pos inside]
  cases rest with
  | nil => simp
  | cons c rest =>
    have halts : continuesIdentifier c = false := by simpa [Halts] using halts
    simp [halts]

theorem colon_of_takeWhile {cs rest more : List Char} (halts : Halts rest)
    (colon : cs.takeWhile continuesIdentifier ++ rest = ':' :: more) :
    ∃ others, cs = ':' :: others := by
  have apart : ∀ others, rest ≠ ':' :: others := by
    rintro others rfl
    exact absurd halts (by simp [Halts, continuesIdentifier, startsIdentifier])
  cases cs with
  | nil => exact absurd colon (apart more)
  | cons c cs =>
    rw [List.takeWhile_cons] at colon
    split at colon
    · exact ⟨cs, congrArg (· :: cs) (List.cons.inj colon).1⟩
    · exact absurd colon (apart more)

theorem isName_of_token? {cs rest : List Char} {name : String}
    (found : token? cs = some (.identifier name, rest)) : IsName name := by
  unfold token? at found
  split at found
  · exact nomatch found
  · exact nomatch found
  · exact nomatch found
  · rename_i c tail notLeft notRight
    split at found
    · rename_i starts
      obtain ⟨rfl, -⟩ : String.ofList (c :: tail.takeWhile continuesIdentifier) = name ∧ _ := by
        simpa using found
      intro rest halts
      obtain ⟨taken, left⟩ := takeWhile_append tail halts
      rw [String.toList_ofList, List.cons_append]
      unfold token?
      split
      · rename_i whole
        exact nomatch whole
      · rename_i whole
        obtain ⟨rfl, colon⟩ := List.cons.inj whole
        obtain ⟨others, rfl⟩ := colon_of_takeWhile halts colon
        exact (notLeft others rfl rfl).elim
      · rename_i whole
        obtain ⟨rfl, colon⟩ := List.cons.inj whole
        obtain ⟨others, rfl⟩ := colon_of_takeWhile halts colon
        exact (notRight others rfl rfl).elim
      · rename_i whole
        obtain ⟨rfl, rfl⟩ := List.cons.inj whole
        rw [if_pos starts, taken, left]
    · obtain ⟨token, known, same⟩ := Option.map_eq_some_iff.mp found
      obtain rfl := (Prod.mk.inj same).1
      unfold punctuation? at known
      split at known <;> cases known

theorem isName_of_tokensFrom {gap cs : List Char} {found : List Token} {name : String}
    (read : tokensFrom gap cs = .ok found) (member : .identifier name ∈ found) : IsName name := by
  induction size : cs.length using Nat.strong_induction_on generalizing gap cs found with
  | _ size ih =>
    subst size
    unfold tokensFrom at read
    dsimp only at read
    split at read
    · rename_i token rest known
      split at read
      · cases read
      · cases next : tokensFrom [] rest with
        | error stray => simp [next, Except.map] at read
        | ok others =>
          simp only [next, Except.map, Except.ok.injEq] at read
          subst read
          rcases List.mem_cons.mp member with rfl | later
          · exact isName_of_token? known
          · exact ih _ (token?_shorter known) next later rfl
    · split at read
      · split at read <;> cases read
        exact absurd member List.not_mem_nil
      · exact ih _ (Nat.lt_succ_self _) read member rfl

theorem map_map_append {ε : Type} (first second : List Token) (read : Except ε (List Token)) :
    (read.map (second ++ ·)).map (first ++ ·) = read.map ((first ++ second) ++ ·) := by
  cases read <;> simp [Except.map]

theorem tokensFrom_token {cs rest : List Char} {token : Token}
    (found : token? cs = some (token, rest)) :
    tokensFrom [] cs = (tokensFrom [] rest).map ([token] ++ ·) := by
  rw [tokensFrom]
  split
  · rename_i known
    obtain ⟨rfl, rfl⟩ := Prod.mk.inj (Option.some.inj (found.symm.trans known))
    rfl
  · rename_i known
    exact nomatch found.symm.trans known

theorem tokensFrom_blank (gap cs : List Char) :
    tokensFrom (gap ++ [' ']) cs = tokensFrom gap cs := by
  have words (gap : List Char) : Text.words Text.isSpace (gap ++ [' ']).reverse =
      Text.words Text.isSpace gap.reverse := by
    rw [List.reverse_concat]
    rfl
  induction cs generalizing gap with
  | nil => rw [tokensFrom, tokensFrom, words]
  | cons c rest ih =>
    rw [tokensFrom, tokensFrom, words]
    split
    · rfl
    · exact ih (c :: gap)

theorem tokensFrom_space (cs : List Char) : tokensFrom [] (' ' :: cs) = tokensFrom [] cs := by
  have none : token? (' ' :: cs) = none := rfl
  rw [tokensFrom]
  split
  · rename_i known
    exact nomatch none.symm.trans known
  · exact tokensFrom_blank [] cs

def Lexes (cs : List Char) (found : List Token) : Prop :=
  ∀ rest, Halts rest → tokensFrom [] (cs ++ rest) = (tokensFrom [] rest).map (found ++ ·)

structure Parts (gap : List Char) (found : List Token) : Prop where
  halts : ∀ rest, Halts (gap ++ rest)
  lexes : ∀ rest, tokensFrom [] (gap ++ rest) = (tokensFrom [] rest).map (found ++ ·)

theorem Lexes.nil : Lexes [] [] := by
  intro rest _
  rw [List.nil_append]
  cases tokensFrom [] rest <;> rfl

theorem IsName.lexes {name : String} (isName : IsName name) :
    Lexes name.toList [.identifier name] :=
  fun rest halts => tokensFrom_token (isName rest halts)

theorem Parts.append {gap others : List Char} {found more : List Token} (first : Parts gap found)
    (second : Parts others more) : Parts (gap ++ others) (found ++ more) where
  halts rest := by
    rw [List.append_assoc]
    exact first.halts _
  lexes rest := by
    rw [List.append_assoc, first.lexes, second.lexes, map_map_append]

theorem parts_space : Parts [' '] [] where
  halts _ := rfl
  lexes rest := by
    rw [List.singleton_append, tokensFrom_space]
    cases tokensFrom [] rest <;> rfl

theorem parts_bar : Parts ['|'] [.bar] where
  halts _ := rfl
  lexes _ := tokensFrom_token rfl

theorem parts_closing : Parts [')'] [.closing] where
  halts _ := rfl
  lexes _ := tokensFrom_token rfl

theorem Lexes.append {cs gap : List Char} {found more : List Token} (lexes : Lexes cs found)
    (parts : Parts gap more) : Lexes (cs ++ gap) (found ++ more) := by
  intro rest _
  rw [List.append_assoc, lexes _ (parts.halts rest), parts.lexes, map_map_append]

theorem Lexes.cons {c : Char} {cs : List Char} {token : Token} {found : List Token}
    (first : ∀ rest, token? (c :: rest) = some (token, rest)) (lexes : Lexes cs found) :
    Lexes (c :: cs) (token :: found) := by
  intro rest halts
  rw [List.cons_append, tokensFrom_token (first _), lexes rest halts, map_map_append]
  rfl

theorem Lexes.intercalate {α : Type} {gap : List Char} {between : List Token}
    (parts : Parts gap between) (text : α → List Char) (found : α → List Token) (items : List α)
    (lexes : ∀ item ∈ items, Lexes (text item) (found item)) :
    Lexes (gap.intercalate (items.map text)) (between.intercalate (items.map found)) := by
  induction items with
  | nil => exact .nil
  | cons item rest ih =>
    have here := lexes item List.mem_cons_self
    have later := ih fun other member => lexes other (List.mem_cons_of_mem _ member)
    cases rest with
    | nil => simpa using here
    | cons other rest =>
      intro after halts
      simp only [List.map_cons, List.intercalate_cons_cons, List.append_assoc] at later ⊢
      rw [here _ (parts.halts _), parts.lexes, later after halts, map_map_append, map_map_append]
      simp only [List.append_assoc]

end Selector

namespace Matcher

open Selector (IsName Lexes Parts)

theorem intercalate_nil {α : Type} (lists : List (List α)) : [].intercalate lists = lists.flatten := by
  induction lists with
  | nil => rfl
  | cons list rest ih => cases rest <;> simp_all

mutual

theorem lexes_text : (matcher : Matcher) → (∀ atom ∈ matcher.atoms, IsName atom) →
    Lexes matcher.text.toList matcher.written
  | .path atoms, named => by
    have lexes := Selector.Lexes.intercalate Selector.parts_space String.toList
      (fun atom => [.identifier atom]) atoms fun atom member => (named atom member).lexes
    rw [intercalate_nil, ← List.flatMap_def, ← List.map_eq_flatMap] at lexes
    rw [text, written, String.toList_intercalate]
    exact lexes
  | .not inner, named => by
    rw [text, written, String.toList_append]
    exact (lexes_text inner named).cons fun _ => rfl
  | .and all, named => by
    have lexes := Selector.Lexes.intercalate Selector.parts_space (String.toList ∘ text) written all
      (lexes_of_mem all named)
    rw [intercalate_nil] at lexes
    rw [text, written, String.toList_intercalate, texts_eq_map, writtens_eq_map, List.map_map]
    exact lexes
  | .or any, named => by
    have bar : Selector.Parts [' ', '|', ' '] [.bar] :=
      Selector.parts_space.append (Selector.parts_bar.append Selector.parts_space)
    have lexes := Selector.Lexes.intercalate bar (String.toList ∘ text) written any
      (lexes_of_mem any named)
    rw [text, written, String.toList_append, String.toList_append, String.toList_intercalate,
      texts_eq_map, writtens_eq_map, List.map_map]
    exact (lexes.append Selector.parts_closing).cons fun _ => rfl

theorem lexes_of_mem : (matchers : List Matcher) → (∀ atom ∈ atomsOf matchers, IsName atom) →
    ∀ matcher ∈ matchers, Lexes matcher.text.toList matcher.written
  | [], _, _, member => absurd member List.not_mem_nil
  | first :: rest, named, matcher, member => by
    obtain ⟨here, later⟩ := List.forall_mem_append.mp named
    rcases List.mem_cons.mp member with same | inner
    · exact same ▸ lexes_text first here
    · exact lexes_of_mem rest later matcher inner

end

theorem tokens_text (matcher : Matcher) (named : ∀ atom ∈ matcher.atoms, IsName atom) :
    Selector.tokens matcher.text = .ok matcher.written := by
  have nothing : Selector.tokensFrom [] [] = .ok [] := by
    rw [Selector.tokensFrom]
    rfl
  have lexes := lexes_text matcher named [] rfl
  rwa [List.append_nil, nothing, Except.map, List.append_nil] at lexes

end Matcher

namespace Selector

theorem isName_of_parse {source : String} {selector : Selector}
    (read : parse source = .ok selector) {alternative : Alternative}
    (member : alternative ∈ selector.alternatives) :
    ∀ atom ∈ alternative.matcher.atoms, IsName atom := by
  obtain ⟨-, found, spelled, derives⟩ := parse_eq_ok_iff.mp read
  intro atom inside
  have listed : atom ∈ found.filterMap (·.name?) := by
    rw [← derives.atoms]
    exact List.mem_flatMap.mpr ⟨alternative, member, inside⟩
  obtain ⟨token, known, name⟩ := List.mem_filterMap.mp listed
  cases token <;> cases name
  exact isName_of_tokensFrom spelled known

end Selector

end Highlighter
