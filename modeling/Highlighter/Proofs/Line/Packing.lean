import Highlighter.Proofs.Line.Unison
import Highlighter.Proofs.Line.Coverage

set_option autoImplicit false

namespace Highlighter

namespace Tiles

variable {tokens : List Token} {stop : Nat}

theorem start_lt (tiles : Tiles tokens stop) : ∀ token ∈ tokens, token.start < stop := by
  induction tokens generalizing stop with
  | nil => simp
  | cons last rest ih =>
    intro token member
    rcases List.mem_cons.mp member with rfl | inner
    · exact tiles.2.1
    · exact (ih tiles.2.2 token inner).trans tiles.2.1

theorem starts_later (tiles : Tiles tokens stop) :
    tokens.Pairwise fun next token => token.start < next.start := by
  induction tokens generalizing stop with
  | nil => exact .nil
  | cons last rest ih => exact .cons (tiles.2.2.start_lt) (ih tiles.2.2)

end Tiles

namespace PackedToken

def ofToken (token : Token) : PackedToken := ⟨UInt32.ofNat token.start, token.metadata⟩

def merged (tokens : List Token) : List PackedToken :=
  (tokens.map ofToken).destutter (·.metadata ≠ ·.metadata)

theorem merged_clip (limit : Nat) (tokens : List Token) :
    merged (tokens.map (Token.clip limit)) = merged tokens := by
  simp only [merged, List.map_map]
  rfl

theorem merged_subset {tokens : List Token} {packed : PackedToken}
    (member : packed ∈ merged tokens) : ∃ token ∈ tokens, packed = ofToken token := by
  have kept := (List.destutter_sublist _ _).subset member
  obtain ⟨token, known, rfl⟩ := List.mem_map.mp kept
  exact ⟨token, known, rfl⟩

section Destutter

variable (relation : PackedToken → PackedToken → Prop) [DecidableRel relation]

theorem destutter'_concat (first last : PackedToken) (between : List PackedToken) :
    ∃ kept, (between.destutter' relation first).getLast? = some kept ∧
      (between ++ [last]).destutter' relation first =
        between.destutter' relation first ++ if relation kept last then [last] else [] := by
  induction between generalizing first with
  | nil =>
    refine ⟨first, rfl, ?_⟩
    rw [List.nil_append, List.destutter'_singleton, List.destutter'_nil]
    split <;> rfl
  | cons next rest ih =>
    rw [List.cons_append, List.destutter'_cons, List.destutter'_cons]
    split
    · obtain ⟨kept, same, grown⟩ := ih next
      refine ⟨kept, ?_, by rw [grown, List.cons_append]⟩
      rw [List.getLast?_cons, same, Option.getD_some]
    · exact ih first

theorem head?_destutter' (first : PackedToken) (rest : List PackedToken) :
    (rest.destutter' relation first).head? = some first := by
  induction rest generalizing first with
  | nil => rfl
  | cons next rest ih =>
    rw [List.destutter'_cons]
    split
    · rfl
    · exact ih first

end Destutter

theorem merged_concat (tokens : List Token) (token : Token) :
    merged (tokens ++ [token]) =
      merged tokens ++ if (merged tokens).getLast?.map (·.metadata) = some token.metadata then []
        else [ofToken token] := by
  cases tokens with
  | nil => rfl
  | cons first rest =>
    obtain ⟨kept, same, grown⟩ :=
      destutter'_concat (·.metadata ≠ ·.metadata) (ofToken first) (ofToken token) (rest.map ofToken)
    simp only [merged, List.cons_append, List.map_cons, List.map_append, List.map_nil,
      List.destutter_cons', grown, same]
    by_cases alike : kept.metadata = token.metadata <;> simp [alike, ofToken]

theorem merged_head? (tokens : List Token) : (merged tokens).head? = tokens.head?.map ofToken := by
  cases tokens with
  | nil => rfl
  | cons first rest => exact head?_destutter' _ _ _

theorem merged_differ (tokens : List Token) : (merged tokens).IsChain (·.metadata ≠ ·.metadata) :=
  List.isChain_destutter _ _

theorem merged_increases {tokens : List Token} {size : Nat} (short : size < UInt32.size)
    (bounded : ∀ token ∈ tokens, token.start ≤ size)
    (increases : tokens.Pairwise (·.start < ·.start)) :
    (merged tokens).Pairwise (·.start < ·.start) := by
  refine (List.pairwise_map.mpr ?_).sublist (List.destutter_sublist _ _)
  refine increases.imp_of_mem fun {token next} member later less => ?_
  exact (UInt32.ofNat_lt_iff_lt ((bounded token member).trans_lt short)
    ((bounded next later).trans_lt short)).mpr less

end PackedToken

/-- Packed tokens that say what tokens say. -/
structure Packing (tokens : List Token) (packed : List PackedToken) : Prop where
  merges : packed = PackedToken.merged tokens
  starts : packed.head?.map (·.start) = some 0
  increases : packed.Pairwise (·.start < ·.start)
  differ : packed.IsChain (·.metadata ≠ ·.metadata)

open PackedToken (ofToken merged merged_concat merged_subset)

theorem Packing.clip {tokens : List Token} {packed : List PackedToken}
    (packing : Packing tokens packed) (limit : Nat) :
    Packing (tokens.map (Token.clip limit)) packed where
  merges := packing.merges.trans (PackedToken.merged_clip limit tokens).symm
  starts := packing.starts
  increases := packing.increases
  differ := packing.differ

theorem Tiles.packing {tokens : List Token} {stop size : Nat} (short : size < UInt32.size)
    (tiles : Tiles tokens stop) (within : stop ≤ size + 1) (present : tokens ≠ []) :
    Packing tokens.reverse (merged tokens.reverse) where
  merges := rfl
  starts := by
    have first := tiles.starts present
    rw [PackedToken.merged_head?, List.head?_reverse]
    cases last : tokens.getLast? with
    | none => simp [last] at first
    | some token =>
      obtain zero : token.start = 0 := by simpa [last] using first
      simp [ofToken, zero]
  increases := by
    refine PackedToken.merged_increases short (fun token member => ?_)
      (List.pairwise_reverse.mpr tiles.starts_later)
    have earlier := tiles.start_lt token (List.mem_reverse.mp member)
    omega
  differ := PackedToken.merged_differ _

namespace Emitted

variable {tokens : List Token} {packed : List PackedToken}

theorem add_packed (same : packed.reverse = merged tokens.reverse) (start stop : Nat)
    (scopes : ScopePath) (metadata : Metadata) :
    ∃ added, (Emitted.packed packed).add start stop scopes metadata = .packed added ∧
      added.reverse = merged (⟨start, stop, scopes.names, metadata⟩ :: tokens).reverse := by
  have last : (merged tokens.reverse).getLast? = packed.head? := by
    rw [← same, List.getLast?_reverse]
  rw [List.reverse_cons, merged_concat, last, ← same]
  cases packed with
  | nil => exact ⟨_, rfl, rfl⟩
  | cons latest rest =>
    by_cases alike : latest.metadata = metadata
    · exact ⟨latest :: rest, by simp [add, alike], by simp [alike]⟩
    · refine ⟨⟨UInt32.ofNat start, metadata⟩ :: latest :: rest, by simp [add, alike], ?_⟩
      simp [alike, ofToken]

def withoutFeed (size : Nat) : List Token → List Token
  | last :: rest => if last.start = size then rest else last :: rest
  | [] => []

def withoutFeedPacked (size : Nat) : List PackedToken → List PackedToken
  | last :: rest => if last.start.toNat = size then rest else last :: rest
  | [] => []

variable {size stop : Nat}

theorem withoutFeed_tiles (tiles : Tiles tokens stop) (within : stop ≤ size + 1) :
    ∃ last ≤ size + 1, Tiles (withoutFeed size tokens) last := by
  cases tokens with
  | nil => exact ⟨stop, within, tiles⟩
  | cons last rest =>
    rw [withoutFeed]
    split
    · exact ⟨last.start, tiles.2.1.le.trans within, tiles.2.2⟩
    · exact ⟨stop, within, tiles⟩

-- The line feed has a packed token of its own only where it is a run of its own.
theorem withoutFeedPacked_reverse (short : size < UInt32.size) (tiles : Tiles tokens stop)
    (within : stop ≤ size + 1) (same : packed.reverse = merged tokens.reverse) :
    (withoutFeedPacked size packed).reverse = merged (withoutFeed size tokens).reverse := by
  cases tokens with
  | nil =>
    obtain rfl : packed = [] := List.reverse_eq_nil_iff.mp same
    rfl
  | cons last rest =>
    obtain ⟨ends, filled, before⟩ := tiles
    have small : last.start ≤ size := Nat.le_of_lt_succ (filled.trans_le within)
    have fits (token : Token) (bound : token.start ≤ size) :
        (ofToken token).start.toNat = token.start :=
      UInt32.toNat_ofNat_of_lt' (bound.trans_lt short)
    rw [List.reverse_cons, merged_concat] at same
    split at same
    · rename_i joined
      rw [List.append_nil] at same
      -- The line feed goes on with a run that starts before it.
      have stays : withoutFeedPacked size packed = packed := by
        cases packed with
        | nil => rfl
        | cons latest others =>
          obtain ⟨token, member, rfl⟩ : ∃ token ∈ rest.reverse, latest = ofToken token :=
            merged_subset (same ▸ by simp)
          have earlier := before.start_lt token (List.mem_reverse.mp member)
          have apart : (ofToken token).start.toNat ≠ size := by
            rw [fits token (by omega)]
            omega
          exact if_neg apart
      rw [stays, same, withoutFeed]
      split
      · rfl
      · rw [List.reverse_cons, merged_concat, if_pos joined, List.append_nil]
    · rename_i apart
      obtain rfl : packed = ofToken last :: (merged rest.reverse).reverse := by
        rw [← List.reverse_reverse packed, same, List.reverse_append]
        rfl
      simp only [withoutFeedPacked, withoutFeed, fits last small]
      split
      · exact List.reverse_reverse _
      · rw [List.reverse_cons, List.reverse_reverse, List.reverse_cons, merged_concat, if_neg apart]

theorem finish_packing (short : size < UInt32.size) (tiles : Tiles tokens stop)
    (within : stop ≤ size + 1) (same : packed.reverse = merged tokens.reverse) (scopes : ScopePath)
    (metadata : Metadata) :
    Packing ((Emitted.plain tokens).finish size scopes metadata).tokens
      ((Emitted.packed packed).finish size scopes metadata).packedTokens := by
  have plain : ((Emitted.plain tokens).finish size scopes metadata).tokens =
      ((if (withoutFeed size tokens).isEmpty then [⟨0, size + 1, scopes.names, metadata⟩]
        else withoutFeed size tokens).reverse).map (Token.clip size) := by
    cases tokens <;> rfl
  have merges : ((Emitted.packed packed).finish size scopes metadata).packedTokens =
      (if (withoutFeedPacked size packed).isEmpty then [⟨0, metadata⟩]
        else withoutFeedPacked size packed).reverse := by
    cases packed <;> rfl
  have left := withoutFeedPacked_reverse short tiles within same
  rw [plain, merges]
  by_cases empty : withoutFeed size tokens = []
  · have bare : withoutFeedPacked size packed = [] := by
      rw [empty] at left
      exact List.reverse_eq_nil_iff.mp left
    simp only [empty, bare, List.isEmpty_nil, if_true]
    exact ⟨rfl, rfl, List.pairwise_singleton _ _, .singleton _⟩
  · obtain ⟨last, bound, tiled⟩ := withoutFeed_tiles tiles within
    have present : withoutFeedPacked size packed ≠ [] := by
      intro bare
      have first := congrArg List.head? left
      rw [bare, PackedToken.merged_head?] at first
      exact empty (by simpa using first)
    rw [if_neg (by simpa using empty), if_neg (by simpa using present), left]
    exact (tiled.packing short bound empty).clip size

end Emitted

namespace Job

variable {grammar : Grammar}

def Packs (limit : Nat) (first second : Work grammar) : Prop :=
  ∃ tokens packed, first.emitted = .plain tokens ∧ second.emitted = .packed packed ∧
    packed.reverse = merged tokens.reverse ∧ Tiles tokens first.lastStop ∧
    first.lastStop = second.lastStop ∧ first.lastStop ≤ limit ∧ first.tooDeep = second.tooDeep

theorem packs_steady (limit : Nat) :
    Steady (Packs limit : Work grammar → Work grammar → Prop) limit where
  emit := by
    intro scopes stop bound first second packs
    refine ⟨trivial, ?_⟩
    obtain ⟨tokens, packed, plain, dense, same, tiles, places, before, deep⟩ := packs
    rw [run_emit, run_emit, ← places]
    split
    · exact ⟨tokens, packed, plain, dense, same, tiles, places, before, deep⟩
    · rename_i later
      obtain ⟨added, merges, now⟩ :=
        Emitted.add_packed same first.lastStop stop scopes (grammar.tokenMetadata scopes)
      refine ⟨_, added, ?_, ?_, now, ⟨rfl, Nat.lt_of_not_le later, tiles⟩, rfl, bound, deep⟩
      · rw [plain]
        rfl
      · rw [dense]
        exact merges
  overflow := by
    rintro first second ⟨tokens, packed, plain, dense, same, tiles, places, before, _⟩
    exact ⟨trivial, tokens, packed, plain, dense, same, tiles, places, before, rfl⟩
  caches := fun _ _ _ _ same => same

end Job

namespace Grammar

variable {grammar : Grammar}

/-- Packed or not, a line ends with the same stack, and its packed tokens are its tokens, each run
of them with the same metadata as one. -/
theorem tokenize_packing (grammar : Grammar) (depth : Nat) (line : String)
    (short : Text.byteLength line.toList < 2 ^ 32) (prior : Option Stack)
    (checks : Option Nat) (one other : Caches grammar) :
    let plain := ((tokenize depth line prior checks false).run one).1
    let packed := ((tokenize depth line prior checks true).run other).1
    packed.stack = plain.stack ∧ packed.stoppedEarly = plain.stoppedEarly ∧
      packed.tooDeep = plain.tooDeep ∧
      Packing plain.emitted.tokens packed.emitted.packedTokens := by
  obtain ⟨ready, plain⟩ := tokenize_eq depth line prior checks false one
  obtain ⟨ready', packed⟩ := tokenize_eq depth line prior checks true other
  have nothing : Job.Packs (lineSize line)
      (⟨ready, Emitted.none false, 0, false⟩ : Work grammar) ⟨ready', Emitted.none true, 0, false⟩ :=
    ⟨[], [], rfl, rfl, rfl, rfl, rfl, Nat.zero_le _, rfl⟩
  obtain ⟨ends, packs⟩ := lineJob_unison (Job.packs_steady (lineSize line)) depth line le_rfl
    (grammar.startOfLine prior) prior.isNone checks _ _ nothing
  obtain ⟨tokens, dense, emitted, merges, same, tiles, _, within, deep⟩ := packs
  have size := lineSize_eq line
  dsimp only
  rw [plain, packed]
  simp only [lineResult, ← ends, size, Nat.add_sub_cancel]
  refine ⟨trivial, trivial, deep.symm, ?_⟩
  rw [emitted, merges]
  exact Emitted.finish_packing short tiles (size ▸ within) same _ _

end Grammar

-- A rule that names what it matches.
def Library.naming : Library :=
  ⟨⟨some "t", none,
    [⟨none, some "n", none, some "x", none, none, none, none, none, none, none, none, none, false⟩],
    [], [], none, [], [], none⟩, Repository.empty⟩

def RuleGraph.naming : RuleGraph :=
  ⟨#[.held 0 [1], ⟨1, some [.plain 'n'], none, .matching (.unanchored "x" (.set (.char 'x'))) []⟩],
    0, []⟩

namespace Grammar

def naming : Grammar :=
  ofGraph Library.naming Configuration.default (RuleGraph.compile Library.naming)

theorem naming_eq :
    naming = ⟨Library.naming.base, RuleGraph.naming, ⟨0, []⟩, [], none, none⟩ := by
  cbv

theorem naming_tokens :
    ((tokenize 9 "xa" none none false).run (Caches.empty naming)).1.emitted.tokens =
      [⟨0, 1, ["t", "n"], 0⟩, ⟨1, 2, ["t"], 0⟩] := by
  rw [naming_eq]
  cbv

theorem tokenize_packing_naming :
    let plain := ((tokenize 9 "xa" none none false).run (Caches.empty naming)).1
    let packed := ((tokenize 9 "xa" none none true).run (Caches.empty naming)).1
    plain.emitted.tokens = [⟨0, 1, ["t", "n"], 0⟩, ⟨1, 2, ["t"], 0⟩] ∧
      packed.emitted.packedTokens = [⟨0, 0⟩] ∧ packed.stack = plain.stack := by
  obtain ⟨same, _, _, packing⟩ :=
    tokenize_packing naming 9 "xa" (by cbv) none none (Caches.empty naming) (Caches.empty naming)
  refine ⟨naming_tokens, ?_, same⟩
  rw [packing.merges, naming_tokens]
  rfl

end Grammar

end Highlighter
