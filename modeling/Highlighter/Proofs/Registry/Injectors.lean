import Highlighter.Proofs.Registry.Coherence

set_option autoImplicit false

namespace Highlighter

namespace Registry

def Registers (operations : List Operation) (i : Nat) (decl : GrammarDecl) : Prop :=
  operations[i]? = some (.add decl) ∧ ((after (operations.take i)).add decl).isOk = true

/-- The operation with this number registers a grammar of the scope, and no later one does. -/
structure LastRegistered (operations : List Operation) (scope : String) (i : Nat) : Prop where
  registers : ∃ decl, Registers operations i decl ∧ decl.scopeName = scope
  last : ∀ j decl, i < j → Registers operations j decl → decl.scopeName ≠ scope

def RegisteredBefore (operations : List Operation) (one other : String) : Prop :=
  ∃ i j, LastRegistered operations one i ∧ LastRegistered operations other j ∧ i < j

variable {operations : List Operation} {operation : Operation} {scope one other : String}
  {decl : GrammarDecl} {i j : Nat}

theorem isOk_add (registry : Registry) (decl : GrammarDecl) :
    (registry.add decl).isOk = decl.validate.isOk := by
  unfold add Repository.add
  cases decl.validate <;> rfl

theorem registers_iff :
    Registers operations i decl ↔ operations[i]?.bind (·.accepted?) = some decl := by
  simp only [Registers, isOk_add, decl.isOk_validate_iff, Option.bind_eq_some_iff,
    Operation.accepted?_eq_some_iff]
  constructor
  · rintro ⟨here, valid⟩
    exact ⟨.add decl, here, rfl, valid⟩
  · rintro ⟨_, here, rfl, valid⟩
    exact ⟨here, valid⟩

theorem registers_concat : Registers (operations ++ [operation]) i decl ↔
    Registers operations i decl ∨ i = operations.length ∧ operation.accepted? = some decl := by
  simp only [registers_iff]
  rcases Nat.lt_trichotomy i operations.length with before | rfl | after
  · simp [List.getElem?_append_left before, before.ne]
  · simp
  · have absent : operations[i]? = none := List.getElem?_eq_none after.le
    have absent' : (operations ++ [operation])[i]? = none :=
      List.getElem?_eq_none (by simpa using after)
    simp [absent, absent', after.ne']

theorem Registers.lt_length (registers : Registers operations i decl) : i < operations.length :=
  (List.getElem?_eq_some_iff.mp registers.1).1

namespace LastRegistered

theorem unique (first : LastRegistered operations scope i)
    (second : LastRegistered operations scope j) : i = j := by
  obtain ⟨one, registers, named⟩ := first.registers
  obtain ⟨other, registers', named'⟩ := second.registers
  rcases Nat.lt_trichotomy i j with before | same | after
  · exact absurd named' (first.last j other before registers')
  · exact same
  · exact absurd named (second.last i one after registers)

theorem scopeName (last : LastRegistered operations scope i)
    (registers : Registers operations i decl) : decl.scopeName = scope := by
  obtain ⟨other, ⟨here, -⟩, rfl⟩ := last.registers
  obtain rfl := Operation.add.inj (Option.some.inj (here.symm.trans registers.1))
  rfl

theorem concat_iff (different : ∀ decl, operation.accepted? = some decl → decl.scopeName ≠ scope) :
    LastRegistered (operations ++ [operation]) scope i ↔ LastRegistered operations scope i := by
  constructor
  · rintro ⟨⟨decl, registers, named⟩, last⟩
    refine ⟨⟨decl, ?_, named⟩, fun j decl later registers =>
      last j decl later (registers_concat.mpr (.inl registers))⟩
    rcases registers_concat.mp registers with old | ⟨-, accepted⟩
    · exact old
    · exact absurd named (different decl accepted)
  · rintro ⟨⟨decl, registers, named⟩, last⟩
    refine ⟨⟨decl, registers_concat.mpr (.inl registers), named⟩, fun j decl later registers => ?_⟩
    rcases registers_concat.mp registers with old | ⟨-, accepted⟩
    · exact last j decl later old
    · exact different decl accepted

theorem newest (accepted : operation.accepted? = some decl) :
    LastRegistered (operations ++ [operation]) decl.scopeName operations.length where
  registers := ⟨decl, registers_concat.mpr (.inr ⟨rfl, accepted⟩), rfl⟩
  last := fun j other later registers => by
    have bound := registers.lt_length
    rw [List.length_append, List.length_singleton] at bound
    omega

theorem lt_length (last : LastRegistered operations scope i) : i < operations.length := by
  obtain ⟨_, registers, _⟩ := last.registers
  exact registers.lt_length

end LastRegistered

namespace RegisteredBefore

theorem ne (before : RegisteredBefore operations one other) : one ≠ other := by
  rintro rfl
  obtain ⟨i, j, first, second, less⟩ := before
  exact less.ne (first.unique second)

theorem concat (before : RegisteredBefore operations one other)
    (different : ∀ decl, operation.accepted? = some decl →
      decl.scopeName ≠ one ∧ decl.scopeName ≠ other) :
    RegisteredBefore (operations ++ [operation]) one other := by
  obtain ⟨i, j, first, second, less⟩ := before
  refine ⟨i, j, (LastRegistered.concat_iff fun decl accepted => ?_).mpr first,
    (LastRegistered.concat_iff fun decl accepted => ?_).mpr second, less⟩
  · exact (different decl accepted).1
  · exact (different decl accepted).2

theorem newest (last : LastRegistered operations one i) (accepted : operation.accepted? = some decl)
    (different : decl.scopeName ≠ one) :
    RegisteredBefore (operations ++ [operation]) one decl.scopeName := by
  refine ⟨i, operations.length, (LastRegistered.concat_iff fun other here => ?_).mpr last,
    .newest accepted, last.lt_length⟩
  obtain rfl := Option.some.inj (accepted.symm.trans here)
  exact different

end RegisteredBefore

theorem lastAccepted?_eq_some_iff (operations : List Operation) (scope : String)
    (decl : GrammarDecl) : lastAccepted? operations scope = some decl ↔
      ∃ i, LastRegistered operations scope i ∧ Registers operations i decl := by
  induction operations using List.reverseRecOn with
  | nil =>
    refine iff_of_false nofun ?_
    rintro ⟨i, _, registers⟩
    exact nomatch registers.1
  | append_singleton operations operation ih =>
    rw [lastAccepted?_concat]
    by_cases here : ∃ newest, operation.accepted? = some newest ∧ newest.scopeName = scope
    · obtain ⟨newest, accepted, rfl⟩ := here
      have taken : operation.accepted?.filter (·.scopeName = newest.scopeName) = some newest := by
        simp [accepted]
      have last : LastRegistered (operations ++ [operation]) newest.scopeName operations.length :=
        .newest accepted
      rw [taken, Option.orElse_eq_orElse, Option.orElse_some]
      constructor
      · intro same
        obtain rfl := Option.some.inj same
        exact ⟨operations.length, last, registers_concat.mpr (.inr ⟨rfl, accepted⟩)⟩
      · rintro ⟨i, last', registers⟩
        obtain rfl := last'.unique last
        rcases registers_concat.mp registers with old | ⟨-, same⟩
        · exact absurd old.lt_length (Nat.lt_irrefl _)
        · exact accepted.symm.trans same
    · have different (newest : GrammarDecl) (accepted : operation.accepted? = some newest) :
          newest.scopeName ≠ scope := fun same => here ⟨newest, accepted, same⟩
      have passed : operation.accepted?.filter (·.scopeName = scope) = none := by
        simpa [Option.filter_eq_none_iff] using different
      rw [passed, Option.orElse_eq_orElse, Option.orElse_none, ih]
      refine exists_congr fun i => ?_
      rw [LastRegistered.concat_iff different]
      refine and_congr_right fun last => ?_
      simp [registers_concat, last.lt_length.ne]

theorem mem_standing (operations : List Operation) (decl : GrammarDecl) :
    decl ∈ standing operations ↔ lastAccepted? operations decl.scopeName = some decl := by
  induction operations using List.reverseRecOn with
  | nil => simp [standing, lastAccepted?]
  | append_singleton operations operation ih =>
    rw [standing_concat, lastAccepted?_concat]
    cases operation.accepted? with
    | none => exact ih
    | some newest =>
      by_cases same : newest.scopeName = decl.scopeName
      · simp [Option.filter, same, eq_comm]
      · have different : decl ≠ newest := fun equal => same (congrArg _ equal.symm)
        simp [Option.filter, same, Ne.symm same, ih, different]

theorem standing_ordered (operations : List Operation) :
    (standing operations).Pairwise fun one other =>
      RegisteredBefore operations one.scopeName other.scopeName := by
  induction operations using List.reverseRecOn with
  | nil => exact .nil
  | append_singleton operations operation ih =>
    rw [standing_concat]
    cases accepted : operation.accepted? with
    | none =>
      exact ih.imp fun before => before.concat fun _ here => nomatch accepted.symm.trans here
    | some newest =>
      have different (decl : GrammarDecl)
          (kept : decl ∈ (standing operations).filter (·.scopeName != newest.scopeName)) :
          newest.scopeName ≠ decl.scopeName :=
        Ne.symm (bne_iff_ne.mp (List.mem_filter.mp kept).2)
      refine List.pairwise_append.mpr ⟨?_, List.pairwise_singleton _ _, fun decl kept last => ?_⟩
      · refine (ih.filter _).imp_of_mem fun here there before => before.concat fun other same => ?_
        obtain rfl := Option.some.inj (accepted.symm.trans same)
        exact ⟨different _ here, different _ there⟩
      · rintro last
        obtain rfl := List.mem_singleton.mp last
        have stands := (mem_standing operations decl).mp (List.mem_of_mem_filter kept)
        obtain ⟨i, before, -⟩ := (lastAccepted?_eq_some_iff operations _ decl).mp stands
        exact .newest before accepted (different decl kept)

end Registry

namespace Repository

variable {decls : List GrammarDecl} {decl : GrammarDecl} {scope target : String}

theorem mem_injectorsAmong : scope ∈ injectorsAmong decls target ↔
    ∃ decl ∈ decls, decl.scopeName = scope ∧ target ∈ decl.injectsInto := by
  simp [injectorsAmong, List.mem_replicate, List.count_eq_zero, and_comm, eq_comm]

theorem count_injectorsAmong
    (distinct : decls.Pairwise fun one other => one.scopeName ≠ other.scopeName)
    (member : decl ∈ decls) (target : String) :
    (injectorsAmong decls target).count decl.scopeName = decl.injectsInto.count target := by
  induction decls with
  | nil => exact nomatch member
  | cons first rest ih =>
    obtain ⟨others, distinct⟩ := List.pairwise_cons.mp distinct
    have split : injectorsAmong (first :: rest) target =
      List.replicate (first.injectsInto.count target) first.scopeName ++
        injectorsAmong rest target := rfl
    rw [split, List.count_append, List.count_replicate]
    rcases List.mem_cons.mp member with rfl | later
    · have absent : (injectorsAmong rest target).count decl.scopeName = 0 := by
        refine List.count_eq_zero.mpr fun listed => ?_
        obtain ⟨other, inside, same, -⟩ := mem_injectorsAmong.mp listed
        exact others other inside same.symm
      simp [absent]
    · simp [others decl later, ih distinct later]

end Repository

namespace Registry

theorem get?_eq_some_iff (operations : List Operation) (scope : String) (decl : GrammarDecl) :
    (after operations).repository.grammars.get? scope = some decl ↔
      ∃ i, LastRegistered operations scope i ∧ Registers operations i decl := by
  rw [(after_coherent operations).grammars, lastAccepted?_eq_some_iff]

theorem get?_iff_standing (operations : List Operation) (scope : String) (decl : GrammarDecl) :
    (after operations).repository.grammars.get? scope = some decl ↔
      decl ∈ standing operations ∧ decl.scopeName = scope := by
  rw [mem_standing, ← (after_coherent operations).grammars]
  constructor
  · intro here
    obtain ⟨i, last, registers⟩ := (get?_eq_some_iff operations scope decl).mp here
    obtain rfl := last.scopeName registers
    exact ⟨here, rfl⟩
  · rintro ⟨here, rfl⟩
    exact here

theorem mem_injectorsOf_iff (operations : List Operation) (scope target : String) :
    scope ∈ (after operations).repository.injectorsOf target ↔
      ∃ decl, (after operations).repository.grammars.get? scope = some decl ∧
        target ∈ decl.injectsInto := by
  rw [(after_coherent operations).injectors, Repository.mem_injectorsAmong]
  simp only [get?_iff_standing, and_assoc]

/-- The grammar of a scope is the one that was last registered for it. The scopes listed for a
target are those whose grammar names the target, each as often as it does, and in the order in
which their grammars were last registered. -/
theorem injectors_exact (operations : List Operation) (target : String) :
    let repository := (after operations).repository
    (∀ scope decl, repository.grammars.get? scope = some decl ↔
      ∃ i, LastRegistered operations scope i ∧ Registers operations i decl) ∧
    (∀ scope, scope ∈ repository.injectorsOf target ↔
      ∃ decl, repository.grammars.get? scope = some decl ∧ target ∈ decl.injectsInto) ∧
    (∀ scope, (repository.injectorsOf target).count scope =
      (repository.grammars.get? scope).elim 0 fun decl => decl.injectsInto.count target) ∧
    (repository.injectorsOf target).Pairwise fun one other =>
      one = other ∨ RegisteredBefore operations one other := by
  intro repository
  have listed := (after_coherent operations).injectors target
  have ordered := standing_ordered operations
  refine ⟨get?_eq_some_iff operations, (mem_injectorsOf_iff operations · target),
    fun scope => ?count, ?order⟩
  case count =>
    cases here : repository.grammars.get? scope with
    | none =>
      refine List.count_eq_zero.mpr fun injects => ?_
      obtain ⟨decl, known, -⟩ := (mem_injectorsOf_iff operations scope target).mp injects
      exact Option.some_ne_none decl (known.symm.trans here)
    | some decl =>
      obtain ⟨member, rfl⟩ := (get?_iff_standing operations scope decl).mp here
      have distinct := ordered.imp RegisteredBefore.ne
      rw [listed, Repository.count_injectorsAmong distinct member, Option.elim_some]
  case order =>
    rw [listed, Repository.injectorsAmong, List.pairwise_flatMap]
    refine ⟨fun decl _ => List.pairwise_replicate.mpr (.inr (.inl rfl)), ?_⟩
    refine ordered.imp fun before one first other second => .inr ?_
    rwa [List.eq_of_mem_replicate first, List.eq_of_mem_replicate second]

example : (after [.add (declaration (some "a") none ["t"]),
    .add (declaration (some "b") none ["t"]), .add (declaration (some "a") none ["t", "u", "t"]),
    .add (declaration (some " ") none ["t"])]).repository.injectorsOf "t" = ["b", "a", "a"] := by
  cbv

end Registry

end Highlighter
