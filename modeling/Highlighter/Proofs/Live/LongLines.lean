import Highlighter.Proofs.Line.Metadata
import Highlighter.Proofs.Live.Storing
import Highlighter.Proofs.Metadata.Fields

set_option autoImplicit false

namespace Highlighter

open Live

namespace Metadata

theorem overlay_type_twice (word : Metadata) (type last : TokenType) :
    (word.overlay ⟨none, some type, none, 0, 0⟩).overlay ⟨none, some last, none, 0, 0⟩ =
      word.overlay ⟨none, some last, none, 0, 0⟩ := by
  apply Field.ext
  intro field
  simp only [Field.ofWord_overlay]
  cases field with
  | color field => cases field <;> rfl
  | _ => rfl

theorem overlay_type_eq_self_iff (word : Metadata) (type : TokenType) :
    word.overlay ⟨none, some type, none, 0, 0⟩ = word ↔ Metadata.type word = type := by
  have written : Metadata.type (word.overlay ⟨none, some type, none, 0, 0⟩) = type :=
    Field.ofWord_overlay word _ .type
  constructor
  · intro same
    rw [← written, same]
  · intro already
    apply Field.ext
    intro field
    rw [Field.ofWord_overlay]
    cases field with
    | type => exact already.symm
    | color field => cases field <;> rfl
    | _ => rfl

end Metadata

namespace Grammar

variable (grammar : Grammar) (scopes : List String)

def untypedOf : Metadata := grammar.layAll [] grammar.rootMetadata scopes

def givenType? : Option TokenType :=
  ((grammar.types.filter fun rule => rule.1.applies scopes).getLast?).map (·.2)

def KeepsType : Prop :=
  ∀ type, grammar.givenType? scopes = some type → Metadata.type (grammar.untypedOf scopes) = type

theorem foldl_types (rules : List (Selector × TokenType)) (word : Metadata) :
    rules.foldl (fun word rule => word.overlay ⟨none, some rule.2, none, 0, 0⟩) word =
      match rules.getLast? with
      | none => word
      | some rule => word.overlay ⟨none, some rule.2, none, 0, 0⟩ := by
  induction rules generalizing word with
  | nil => rfl
  | cons rule rest ih =>
    rw [List.foldl_cons, ih, List.getLast?_cons]
    cases rest.getLast? with
    | none => rfl
    | some last => exact Metadata.overlay_type_twice word rule.2 last.2

theorem metadataOf_eq :
    grammar.metadataOf scopes =
      match grammar.givenType? scopes with
      | none => grammar.untypedOf scopes
      | some type => (grammar.untypedOf scopes).overlay ⟨none, some type, none, 0, 0⟩ := by
  unfold metadataOf givenType?
  rw [foldl_types]
  cases (grammar.types.filter fun rule => rule.1.applies scopes).getLast? <;> rfl

theorem untypedOf_eq_metadataOf_iff :
    grammar.untypedOf scopes = grammar.metadataOf scopes ↔ grammar.KeepsType scopes := by
  rw [metadataOf_eq]
  unfold KeepsType
  cases grammar.givenType? scopes with
  | none => exact ⟨fun _ => nofun, fun _ => rfl⟩
  | some type =>
    have given := Metadata.overlay_type_eq_self_iff (grammar.untypedOf scopes) type
    constructor
    · rintro same _ ⟨⟩
      exact given.mp same.symm
    · intro keeps
      exact (given.mpr (keeps type rfl)).symm

theorem tokenize_stop_le {grammar : Grammar} (depth : Nat) (line : String) (prior : Option Stack)
    (checks : Option Nat) (caches : Caches grammar) (token : Token)
    (member : token ∈ ((tokenize depth line prior checks false).run caches).1.emitted.tokens) :
    token.stop ≤ Text.byteLength line.toList := by
  obtain ⟨ready, same⟩ := tokenize_eq depth line prior checks false caches
  rw [same] at member
  obtain ⟨old, -, rfl⟩ := Emitted.mem_finish member
  have size : lineSize line - 1 = Text.byteLength line.toList := by
    rw [lineSize_eq, Nat.add_sub_cancel]
  exact size ▸ Nat.min_le_right _ _

end Grammar

theorem Returned.reached {usable : Grammar → Prop} {stack : Stack}
    (returned : Returned usable stack) : Reached usable stack := by
  induction returned with
  | line used depth line prior _ checks isPacked caches ih =>
    exact .line used depth line prior ih checks isPacked caches

theorem LineReader.skip_eq (reader : LineReader) (line : String) (prior : Option Stack) :
    let start := reader.grammar.startOfLine prior
    (reader.skip line prior).1 = [⟨0, Text.byteLength line.toList, start.contentScopes.names,
        start.contentScopes.metadata⟩] ∧
      (reader.skip line prior).2.1 = start := by
  cases prior with
  | some stack => exact ⟨rfl, rfl⟩
  | none =>
    have first : reader.initialStack.1 = reader.grammar.firstStack :=
      Grammar.initialStack_value reader.caches
    exact ⟨by simp only [skip, first]; rfl, first⟩

namespace LiveDocument

section Read

variable (reader : LineReader) (valid : reader.grammar.decl.validate = .ok ()) (limits : Limits)
  (text : String) (prior : Option Stack)
  (earlier : ∀ stack, prior = some stack → Reached (· = reader.grammar) stack)

include valid earlier

theorem readLine_long (long : limits.longestLine < Text.byteLength text.toList) :
    let start := reader.grammar.startOfLine prior
    let scopes := start.contentScopes.names
    (readLine reader limits text prior).1 =
        [⟨0, Text.byteLength text.toList, scopes, reader.grammar.untypedOf scopes⟩] ∧
      (readLine reader limits text prior).2.1 = start := by
  intro start scopes
  have painted : start.OnPaths reader.grammar.Painted :=
    Grammar.startOfLine_painted valid prior earlier
  have skipped := reader.skip_eq text prior
  dsimp only at skipped
  rw [Grammar.metadata_painted painted.content] at skipped
  unfold readLine
  rw [if_pos long]
  exact skipped

theorem metadata_of_readLine (token : Token)
    (member : token ∈ (readLine reader limits text prior).1) :
    token.metadata = if limits.longestLine < token.stop then reader.grammar.untypedOf token.scopes
      else reader.grammar.metadataOf token.scopes := by
  by_cases long : limits.longestLine < Text.byteLength text.toList
  · rw [(readLine_long reader valid limits text prior earlier long).1] at member
    obtain rfl := List.mem_singleton.mp member
    exact (if_pos long).symm
  · unfold readLine at member
    rw [if_neg long] at member
    have found : reader.grammar.Finds token :=
      ⟨prior, limits.depth, text, limits.checks, reader.caches, earlier, member⟩
    have inside := Grammar.tokenize_stop_le limits.depth text prior limits.checks reader.caches token
      member
    rw [if_neg (by omega)]
    exact Grammar.metadata_of_finds valid found

end Read

end LiveDocument

namespace Live

-- The grammar can go on from the slot's stack, and what the slot tells came of reading with it.
def Slot.ReadWith (grammar : Grammar) (longestLine : Nat) (slot : Slot) : Prop :=
  grammar.Knows slot.stack ∧
    (slot.isStale = false → ∃ depth checks text prior,
      UpToDate grammar ⟨longestLine, depth, checks⟩ text prior slot)

namespace Slots

variable {grammar : Grammar} {longestLine : Nat} {slots : Slots}

theorem unread_readWith (longestLine : Nat) {stack : Option Stack} (knows : grammar.Knows stack) :
    (Slot.unread stack).ReadWith grammar longestLine :=
  ⟨knows, nofun⟩

variable (read : ∀ slot ∈ slots.entries, slot.ReadWith grammar longestLine)

include read

theorem prior?_known (line : Nat) : grammar.Knows (slots.prior? line) := by
  cases line with
  | zero => exact Grammar.knows_none grammar
  | succ line =>
    intro stack last
    obtain ⟨slot, here, holds⟩ := Option.bind_eq_some_iff.mp last
    exact (read slot (List.mem_of_getElem? here)).1 stack holds

theorem splice_readWith (edit : Edit) :
    ∀ slot ∈ (slots.splice edit).entries, slot.ReadWith grammar longestLine := by
  intro slot member
  rcases mem_splice edit member with old | ⟨old, here, rfl⟩ | rfl | rfl
  · exact read slot old
  · exact ⟨(read old here).1, nofun⟩
  · exact unread_readWith longestLine (Grammar.knows_none grammar)
  · exact unread_readWith longestLine (prior?_known read _)

theorem invalidate_readWith (line : Nat) :
    ∀ slot ∈ (slots.invalidate line).entries, slot.ReadWith grammar longestLine := by
  intro slot member
  rcases mem_markStale member with old | ⟨old, here, rfl⟩
  · exact read slot old
  · exact ⟨(read old here).1, nofun⟩

end Slots

end Live

namespace LiveDocument

variable {live : LiveDocument}

theorem readLine_readWith (reader : LineReader) (limits : Limits) (text : String)
    {prior : Option Stack} (knows : reader.grammar.Knows prior) :
    let read := readLine reader limits text prior
    Slot.ReadWith reader.grammar limits.longestLine ⟨some read.2.1, some read.1, false⟩ := by
  intro read
  have returned := readLine_returned reader limits text prior knows
  refine ⟨fun stack same => Option.some.inj same ▸ returned, fun _ => ?_⟩
  exact ⟨limits.depth, limits.checks, text, prior, reader, prior, rfl, knows, rfl, rfl, rfl⟩

structure Filled (live : LiveDocument) : Prop where
  slots : ∀ slot ∈ live.slots.entries, slot.ReadWith live.reader.grammar live.longestLine
  asked : ∀ start line prior, live.phase = .asking start line prior →
    live.reader.grammar.Knows prior
  found : ∀ start line tokens stack, live.phase = .storing start line tokens stack →
    Slot.ReadWith live.reader.grammar live.longestLine ⟨some stack, some tokens, false⟩

namespace Filled

theorem of_unheard {next : LiveDocument} (filled : live.Filled)
    (same : next.unheard = live.unheard) : next.Filled := by
  have unheard : live.unheard.Filled := ⟨filled.slots, filled.asked, filled.found⟩
  rw [← same] at unheard
  exact ⟨unheard.slots, unheard.asked, unheard.found⟩

theorem of_slots {next : LiveDocument} (between : next.pass? = none)
    (slots : ∀ slot ∈ next.slots.entries, slot.ReadWith next.reader.grammar next.longestLine) :
    next.Filled := by
  refine ⟨slots, fun start line prior phase => ?_, fun start line tokens stack phase => ?_⟩
  · exact nomatch (congrArg Phase.pass? phase).symm.trans between
  · exact nomatch (congrArg Phase.pass? phase).symm.trans between

theorem unread (count : Nat) (grammar : Grammar) (longestLine : Nat) :
    ∀ slot ∈ (Slots.unread count).entries, slot.ReadWith grammar longestLine := by
  intro slot member
  rw [List.eq_of_mem_replicate member]
  exact Slots.unread_readWith longestLine (Grammar.knows_none grammar)

theorem ofDocument (machine : Machine) (document : Document) (grammar : Grammar)
    (config : Config) : (LiveDocument.ofDocument machine document grammar config).Filled :=
  of_slots rfl (unread _ _ _)

theorem operate (filled : live.Filled) (operation : Operation) :
    (live.operate operation).Filled := by
  rw [operate_eq]
  exact ⟨filled.slots, filled.asked, filled.found⟩

theorem take (filled : live.Filled) (request : Request) (rest : Mailbox) :
    (live.take request rest).Filled := by
  refine of_slots rfl ?_
  cases request with
  | edited edit => exact Slots.splice_readWith filled.slots edit
  | line line => exact Slots.invalidate_readWith filled.slots line
  | theme _ | grammar _ => exact unread _ _ _

theorem store (filled : live.Filled) {start line : Nat} {tokens : List Token} {stack : Stack}
    (phase : live.phase = .storing start line tokens stack) :
    ∀ slot ∈ (live.slots.store line tokens stack).entries,
      slot.ReadWith live.reader.grammar live.longestLine := by
  intro slot member
  rcases List.mem_or_eq_of_mem_set member with old | rfl
  · exact filled.slots slot old
  · exact filled.found _ _ _ _ phase

theorem work (filled : live.Filled) : (live.move .work).Filled := by
  have works := live.work_works
  generalize live.move .work = next at works ⊢
  cases works with
  | idle phase empty => exact filled
  | take turn taken between => exact filled.take _ _
  | defer phase fresh => exact of_slots rfl filled.slots
  | finish phase empty =>
    have settled : Filled { live with
        phase := .waiting
        slots := { live.slots with firstPending := live.slots.length }
        activity := .done } := of_slots rfl filled.slots
    exact settled.of_unheard (live.unheard_finish empty)
  | @begin start phase empty inside =>
    have checking : Filled { live with phase := .checking start start } :=
      ⟨filled.slots, fun _ _ _ => nofun, fun _ _ _ _ => nofun⟩
    exact checking.of_unheard (congrArg (fun live => { live with phase := .checking start start })
      (live.unheard_report .working))
  | check phase empty =>
    refine ⟨filled.slots, ?_, fun _ _ _ _ => nofun⟩
    rintro _ _ _ ⟨⟩
    exact Slots.prior?_known filled.slots _
  | @ask start line prior text phase written =>
    have read := readLine_readWith live.reader live.limits text (filled.asked _ _ _ phase)
    have grammar := readLine_grammar live.reader live.limits text prior
    refine ⟨?_, fun _ _ _ => nofun, ?_⟩
    · exact grammar ▸ filled.slots
    · rintro _ _ _ _ ⟨⟩
      exact grammar ▸ read
  | cut phase empty missing =>
    exact of_slots rfl fun slot member => filled.slots slot (List.mem_of_mem_take member)
  | leave within reason => exact of_slots rfl filled.slots
  | last pending phase empty => exact of_slots rfl (filled.store phase)
  | next pending phase empty inside =>
    exact ⟨filled.store phase, fun _ _ _ => nofun, fun _ _ _ _ => nofun⟩

theorem play (filled : live.Filled) (moves : List Move) : (live.play moves).Filled := by
  induction moves generalizing live with
  | nil => exact filled
  | cons move rest ih =>
    cases move with
    | work => exact ih filled.work
    | operate operation => exact ih (filled.operate operation)

end Filled

theorem work_grammar (live : LiveDocument) : (live.move .work).grammar = live.grammar := by
  have works := live.work_works
  generalize live.move .work = next at works ⊢
  cases works with
  | take turn queued between => exact (live.apply_same _).2.1
  | finish phase empty => exact congrArg (·.grammar) (live.unheard_finish empty)
  | begin phase empty inside => exact congrArg (·.grammar) (live.unheard_report .working)
  | _ => rfl

theorem play_grammar (live : LiveDocument) (moves : List Move) :
    (live.play moves).grammar =
      (requests moves).foldl (fun current request => request.regrammar current) live.grammar := by
  induction moves generalizing live with
  | nil => rfl
  | cons move rest ih =>
    refine (ih (live.move move)).trans ?_
    cases move with
    | work =>
      rw [live.work_grammar]
      rfl
    | operate operation =>
      have set := congrArg (·.grammar) (live.operate_eq operation)
      exact congrArg ((requests rest).foldl _) set

theorem Orderly.grammar_of_ready (orderly : live.Orderly) (line : Nat) (tokens : List Token)
    (ready : live.tokens? line = some tokens) : live.reader.grammar = live.grammar := by
  have still (grammar : Grammar) (request : Request) (queued : request ∈ live.queue) :
      request.regrammar grammar = grammar := by
    cases request with
    | edited _ | line _ => rfl
    | theme _ | grammar _ =>
      have nothing := (orderly.pending _ queued line (Nat.zero_le line)).1
      exact nomatch nothing.symm.trans ready
  have kept := List.foldl_ext _ (fun grammar _ => grammar) live.reader.grammar still
  rw [← orderly.grammar, kept, List.foldl_fixed]

theorem slot_of_tokens? (line : Nat) (tokens : List Token)
    (ready : live.tokens? line = some tokens) :
    ∃ slot ∈ live.slots.entries, slot.isStale = false ∧ slot.tokens = some tokens := by
  obtain ⟨slot, current, holds⟩ := Option.bind_eq_some_iff.mp ready
  unfold Slots.current? at current
  split at current
  · obtain ⟨here, fresh⟩ := Option.filter_eq_some_iff.mp current
    exact ⟨slot, List.mem_of_getElem? here, by simpa using fresh, holds⟩
  · exact nomatch current

theorem metadata_of_ready (filled : live.Filled) (orderly : live.Orderly)
    (valid : live.grammar.decl.validate = .ok ()) (line : Nat) (tokens : List Token)
    (ready : live.tokens? line = some tokens) (token : Token) (member : token ∈ tokens) :
    token.metadata = if live.longestLine < token.stop then live.grammar.untypedOf token.scopes
      else live.grammar.metadataOf token.scopes := by
  obtain ⟨slot, here, fresh, holds⟩ := slot_of_tokens? line tokens ready
  obtain ⟨depth, checks, text, _, reader, start, used, knows, -, read, -⟩ :=
    (filled.slots slot here).2 fresh
  rw [orderly.grammar_of_ready line tokens ready] at used knows
  rw [← used] at valid knows ⊢
  obtain rfl := Option.some.inj (holds.symm.trans read)
  exact metadata_of_readLine reader valid ⟨live.longestLine, depth, checks⟩ text start
    (fun stack same => (knows stack same).reached) token member

/-- A line that is too long is one token in the scopes that the line starts in, and it ends as it
starts. The token has the metadata that reading gives to text in these scopes just where the
selectors keep the type that they have anyway. So whatever has happened to a document, two of its
tokens in the same scopes have the same metadata just where that is so, or else where the lines of
both are too long or those of neither. -/
theorem long_line_metadata (grammar : Grammar) (valid : grammar.decl.validate = .ok ()) :
    (∀ (reader : LineReader) (limits : Limits) (text : String) (prior : Option Stack),
      reader.grammar = grammar → limits.longestLine < Text.byteLength text.toList →
      (∀ stack, prior = some stack → Reached (· = grammar) stack) →
      let start := grammar.startOfLine prior
      let scopes := start.contentScopes.names
      let token : Token := ⟨0, Text.byteLength text.toList, scopes, grammar.untypedOf scopes⟩
      (readLine reader limits text prior).1 = [token] ∧
        (readLine reader limits text prior).2.1 = start ∧
        (token.metadata = grammar.metadataOf scopes ↔ grammar.KeepsType scopes)) ∧
    (∀ token, grammar.Finds token → token.metadata = grammar.metadataOf token.scopes) ∧
    ∀ (machine : Machine) (document : Document) (first : Grammar) (config : Config)
      (moves : List Move),
      let live := (ofDocument machine document first config).play moves
      live.grammar = grammar →
      ∀ (line other : Nat) (tokens others : List Token),
        live.tokens? line = some tokens → live.tokens? other = some others →
        ∀ one ∈ tokens, ∀ two ∈ others, one.scopes = two.scopes →
          (one.metadata = two.metadata ↔ grammar.KeepsType one.scopes ∨
            (live.longestLine < one.stop ↔ live.longestLine < two.stop)) := by
  refine ⟨?_, fun token found => Grammar.metadata_of_finds valid found, ?_⟩
  · rintro reader limits text prior rfl long earlier
    obtain ⟨token, stack⟩ := readLine_long reader valid limits text prior earlier long
    exact ⟨token, stack, Grammar.untypedOf_eq_metadataOf_iff _ _⟩
  · rintro machine document first config moves live rfl line other tokens others ready ready' one
      member two member' same
    have filled : live.Filled := (Filled.ofDocument machine document first config).play moves
    have orderly : live.Orderly := (Orderly.ofDocument machine document first config).play moves
    rw [metadata_of_ready filled orderly valid line tokens ready one member,
      metadata_of_ready filled orderly valid other others ready' two member', ← same,
      ← Grammar.untypedOf_eq_metadataOf_iff]
    by_cases long : live.longestLine < one.stop <;> by_cases long' : live.longestLine < two.stop <;>
      simp [long, long', eq_comm]

def stringly : Grammar := { quoting with types := Grammar.typesOf [("t", .string)] }

def shortAndLong : LiveDocument :=
  ofDocument ⟨9, fun _ => none⟩ ⟨["a", "aa"]⟩ stringly { Config.default with longestLine := 1 }

theorem stringly_valid : stringly.decl.validate = .ok () := by cbv

theorem shortAndLong_ready :
    let live := shortAndLong.play (List.replicate 8 .work)
    live.tokens? 0 = some [⟨0, 1, ["t"], 8388608⟩] ∧ live.tokens? 1 = some [⟨0, 2, ["t"], 0⟩] := by
  constructor
  · cbv
  · cbv

theorem long_line_metadata_stringly :
    (readLine (LineReader.ofGrammar stringly) ⟨1, 9, none⟩ "aa" none).1 =
        [⟨0, 2, ["t"], stringly.untypedOf ["t"]⟩] ∧
      ¬ stringly.KeepsType ["t"] := by
  obtain ⟨alone, -, together⟩ := long_line_metadata stringly stringly_valid
  have long : 1 < Text.byteLength "aa".toList := by decide
  obtain ⟨tokens, -, -⟩ :=
    alone (LineReader.ofGrammar stringly) ⟨1, 9, none⟩ "aa" none rfl long (fun _ => nofun)
  obtain ⟨short, skipped⟩ := shortAndLong_ready
  have kept := play_grammar shortAndLong (List.replicate 8 .work)
  have agree := together _ _ stringly _ _ kept 0 1 _ _ short skipped ⟨0, 1, ["t"], 8388608⟩ (by simp)
    ⟨0, 2, ["t"], 0⟩ (by simp) rfl
  refine ⟨tokens, fun keeps => ?_⟩
  exact absurd (agree.mpr (.inl keeps)) (by decide)

theorem long_line_untyped :
    ¬ ∀ (machine : Machine) (document : Document) (grammar : Grammar) (config : Config)
      (moves : List Move),
      grammar.decl.validate = .ok () →
      let live := (ofDocument machine document grammar config).play moves
      ∀ (line other : Nat) (tokens others : List Token),
        live.tokens? line = some tokens → live.tokens? other = some others →
        ∀ one ∈ tokens, ∀ two ∈ others, one.scopes = two.scopes → one.metadata = two.metadata := by
  intro same
  obtain ⟨short, skipped⟩ := shortAndLong_ready
  have agree := same _ _ stringly _ _ stringly_valid 0 1 _ _ short skipped ⟨0, 1, ["t"], 8388608⟩
    (by simp) ⟨0, 2, ["t"], 0⟩ (by simp) rfl
  exact absurd agree (by decide)

end LiveDocument

end Highlighter
