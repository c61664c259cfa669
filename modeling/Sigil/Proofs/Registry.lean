import Sigil.Proofs.RoundTrip
import Sigil.Registry.Basic

/-! A registry under any sequence of registrations and inclusions from one catalog. A module without functions is the
default one or comes from the catalog, so an inclusion that fails has found nothing that it could lose; and what is
known or resolves once does so ever after. -/
namespace Sigil

namespace Table
variable {α : Type}

theorem eraseAbsent {table : Table α} {key : Text} (absent : table.get? key = none) : table.erase key = table := by
  obtain ⟨entries⟩ := table
  simp only [get?] at absent
  simp only [erase, mk.injEq, List.filter_eq_self]
  induction entries with
  | nil => simp
  | cons entry rest ih =>
    simp only [lookup] at absent
    split at absent
    · simp at absent
    · rename_i other
      intro found member
      rcases List.mem_cons.mp member with rfl | later
      · simpa using other
      · exact ih absent found later

theorem insertFilled (table : Table α) (key : Text) (value : α) : (table.insert key value).isEmpty = false := by
  obtain ⟨entries⟩ := table
  cases entries with
  | nil => rfl
  | cons entry rest =>
    simp only [insert, put, isEmpty]
    split <;> rfl

theorem getExtend (table added : Table α) (key : Text) :
    (table.extend added).get? key = ((empty.extend added).get? key).or (table.get? key) := by
  obtain ⟨entries⟩ := added
  simp only [extend]
  induction entries using List.reverseRecOn with
  | nil => rfl
  | append_singleton entries entry ih =>
    simp only [List.foldl_append, List.foldl_cons, List.foldl_nil, getInsert, ih]
    split <;> rfl

end Table

theorem Text.trimEndBehind (front : Text) {c : Char} (visible : isBlank c = false) (rest : Text) :
    trimEnd (front ++ c :: rest) = front ++ c :: trimEnd rest := by
  rw [← trimEndCons visible]
  simp only [trimEnd, List.reverse_append, List.dropWhile_append]
  split
  · rename_i none
    have shown := trimEndCons visible rest
    rw [trimEnd, List.isEmpty_iff.mp none] at shown
    simp at shown
  · simp

namespace Statement
open Text (isIdentifier)

theorem callHeadBare {gap name : Text} (between : ∀ c ∈ gap, isGap c = true) (identifier : isIdentifier name = true)
    (args : Text) : callHead ('!' :: (gap ++ (name ++ ':' :: args))) = some (Call.defaultModule, name, args) := by
  have sign : expect ['!'] ('!' :: (gap ++ (name ++ ':' :: args))) = some (gap ++ (name ++ ':' :: args)) :=
    expectAppend ['!'] _
  have skipped : skipGap (gap ++ (name ++ ':' :: args)) = name ++ ':' :: args := by
    obtain ⟨c, rest, rfl, visible⟩ := identifierStarts identifier
    have unskipped := skipGapVisible visible (rest ++ ':' :: args)
    rw [skipGap, List.dropWhile_append_of_pos between]
    exact unskipped
  have named : Text.takeIdentifier (name ++ ':' :: args) = some (name, ':' :: args) :=
    Text.takeIdentifierAppend identifier fun c found => by cases found; decide
  have colon : expect [':'] (':' :: args) = some args := expectAppend [':'] args
  simp only [callHead, bind, Option.bind, sign, skipped, named, colon]

theorem parseCallBare {gap name args : Text} {call : Call} (between : ∀ c ∈ gap, isGap c = true)
    (identifier : isIdentifier name = true) (h : parseCall ('!' :: (gap ++ (name ++ ':' :: args))) = .ok call) :
    call.module = Call.defaultModule := by
  have trimmed : Text.trim ('!' :: (gap ++ (name ++ ':' :: args))) =
      '!' :: (gap ++ (name ++ ':' :: Text.trimEnd args)) := by
    rw [Text.trimVisible (by decide), ← List.append_assoc, Text.trimEndBehind _ (by decide), List.append_assoc]
  rw [parseCall, trimmed, callHeadBare between identifier] at h
  obtain ⟨found, _, rfl⟩ := mapOk h
  rfl

end Statement

variable {ω : Type}

namespace Catalog
variable {catalog : Catalog ω}

def function? (catalog : Catalog ω) (module name : Text) : Option (HostFunction ω) :=
  (catalog.get? module).bind fun setup => (setup Table.empty).get? name

def Inserting (catalog : Catalog ω) : Prop :=
  ∀ module setup, catalog.get? module = some setup → ∃ added, ∀ functions, setup functions = functions.extend added

theorem Inserting.getSetup (inserting : catalog.Inserting) {module : Text} {setup : Module ω → Module ω}
    (found : catalog.get? module = some setup) (functions : Module ω) (name : Text) :
    (setup functions).get? name = ((setup Table.empty).get? name).or (functions.get? name) := by
  obtain ⟨added, adds⟩ := inserting module setup found
  rw [adds, adds, Table.getExtend]

end Catalog

namespace Registry

inductive Operation (ω : Type) where
  | register (module name : Text) (function : HostFunction ω)
  | load (module : Text)

def perform (catalog : Catalog ω) (registry : Registry ω) : Operation ω → Registry ω
  | .register module name function => registry.register module name function
  | .load module => (registry.includeModule catalog.load module).2

def performAll (catalog : Catalog ω) (registry : Registry ω) (operations : List (Operation ω)) : Registry ω :=
  operations.foldl (perform catalog) registry

variable {catalog : Catalog ω} {registry after : Registry ω} {module name : Text}

def function? (registry : Registry ω) (module name : Text) : Option (HostFunction ω) :=
  (registry.resolve module name).toOption

theorem functionEq (registry : Registry ω) (module name : Text) :
    registry.function? module name = (registry.module module).get? name := by
  unfold function? resolve Registry.module
  cases registry.modules.get? module with
  | none => rfl
  | some functions =>
    simp only [Option.getD_some]
    cases functions.get? name <;> rfl

theorem moduleOf {functions : Module ω} (known : registry.modules.get? module = some functions) :
    registry.module module = functions := by
  rw [Registry.module, known, Option.getD_some]

theorem moduleInsert (modules : Table (Module ω)) (module : Text) (functions : Module ω) :
    (Registry.mk (modules.insert module functions)).module module = functions :=
  moduleOf (by rw [Table.getInsert, if_pos rfl])

theorem includeCases (registry : Registry ω) (catalog : Catalog ω) (module : Text) :
    (∃ setup, catalog.get? module = some setup ∧ registry.includeModule catalog.load module =
      (.ok (), ⟨registry.modules.insert module (setup (registry.module module))⟩)) ∨
    (catalog.get? module = none ∧
      (registry.includeModule catalog.load module).1 = .error (.moduleNotFound module)) := by
  unfold includeModule Catalog.load
  cases catalog.get? module with
  | none => exact .inr ⟨rfl, rfl⟩
  | some setup => exact .inl ⟨setup, rfl, rfl⟩

/- The default module is known, and a module without functions can be found again in the catalog. -/
structure Founded (catalog : Catalog ω) (registry : Registry ω) : Prop where
  default : registry.hasModule Call.defaultModule = true
  bare : ∀ module functions, registry.modules.get? module = some functions → functions.isEmpty = true →
    module = Call.defaultModule ∨ (catalog.get? module).isSome = true

theorem initialFounded : Founded catalog initial := by
  refine ⟨rfl, fun module functions known _ => ?_⟩
  simp only [initial, Table.getInsert, Table.getEmpty] at known
  split at known
  · rename_i same
    exact .inl same.symm
  · simp at known

theorem Founded.includeRefused (founded : Founded catalog registry) (absent : catalog.get? module = none) :
    (registry.includeModule catalog.load module).2 = registry := by
  unfold includeModule Catalog.load
  simp only [absent, Bool.false_or]
  cases known : registry.modules.get? module with
  | none =>
    have other : module ≠ Call.defaultModule := by
      rintro rfl
      have default := founded.default
      simp [hasModule, Table.contains, known] at default
    have empty : (registry.module module).isEmpty = true := by
      rw [Registry.module, known]
      rfl
    have lost : ¬(!(registry.module module).isEmpty || module == Call.defaultModule) = true := by simp [empty, other]
    rw [if_neg lost, Table.eraseAbsent known]
  | some functions =>
    have kept : (!(registry.module module).isEmpty || module == Call.defaultModule) = true := by
      rw [moduleOf known]
      cases empty : functions.isEmpty with
      | false => rfl
      | true =>
        rcases founded.bare module functions known empty with same | found
        · simp [same]
        · simp [absent] at found
    rw [if_pos kept, moduleOf known, Table.insertGet known]

theorem Founded.insert (founded : Founded catalog registry) {functions : Module ω}
    (bare : functions.isEmpty = true → module = Call.defaultModule ∨ (catalog.get? module).isSome = true) :
    Founded catalog ⟨registry.modules.insert module functions⟩ where
  default := by
    have default := founded.default
    simp only [hasModule, Table.contains, Table.getInsert] at default ⊢
    split
    · rfl
    · exact default
  bare other found known empty := by
    rw [Table.getInsert] at known
    split at known
    · rename_i same
      cases known
      exact same ▸ bare empty
    · exact founded.bare other found known empty

theorem performFounded (founded : Founded catalog registry) (operation : Operation ω) :
    Founded catalog (registry.perform catalog operation) := by
  cases operation with
  | register module name function =>
    refine founded.insert fun empty => ?_
    rw [Table.insertFilled] at empty
    contradiction
  | load module =>
    rw [perform]
    rcases includeCases registry catalog module with ⟨setup, found, loaded⟩ | ⟨absent, _⟩
    · rw [loaded]
      exact founded.insert fun _ => .inr (by rw [found]; rfl)
    · rw [founded.includeRefused absent]
      exact founded

theorem performAllFounded (founded : Founded catalog registry) (operations : List (Operation ω)) :
    Founded catalog (registry.performAll catalog operations) := by
  induction operations generalizing registry with
  | nil => exact founded
  | cons operation rest ih => exact ih (performFounded founded operation)

def Grows (before after : Registry ω) : Prop :=
  ∀ module functions, before.modules.get? module = some functions → ∃ more, after.modules.get? module = some more ∧
    ∀ name, (functions.get? name).isSome = true → (more.get? name).isSome = true

theorem growsRefl (registry : Registry ω) : registry.Grows registry :=
  fun _ functions known => ⟨functions, known, fun _ held => held⟩

theorem Grows.trans {before middle after : Registry ω} (one : before.Grows middle) (two : middle.Grows after) :
    before.Grows after := by
  intro module functions known
  obtain ⟨more, still, kept⟩ := one module functions known
  obtain ⟨most, last, carried⟩ := two module more still
  exact ⟨most, last, fun name held => carried name (kept name held)⟩

theorem growsInsert {functions : Module ω}
    (kept : ∀ name, ((registry.module module).get? name).isSome = true → (functions.get? name).isSome = true) :
    registry.Grows ⟨registry.modules.insert module functions⟩ := by
  intro other found known
  by_cases same : module = other
  · subst same
    rw [moduleOf known] at kept
    exact ⟨functions, by rw [Table.getInsert, if_pos rfl], kept⟩
  · exact ⟨found, by rw [Table.getInsert, if_neg same, known], fun _ held => held⟩

theorem performGrows (inserting : catalog.Inserting) (founded : Founded catalog registry) (operation : Operation ω) :
    registry.Grows (registry.perform catalog operation) := by
  cases operation with
  | register module name function =>
    refine growsInsert fun other held => ?_
    rw [Table.getInsert]
    split
    · rfl
    · exact held
  | load module =>
    rw [perform]
    rcases includeCases registry catalog module with ⟨setup, found, loaded⟩ | ⟨absent, _⟩
    · rw [loaded]
      refine growsInsert fun name held => ?_
      rw [inserting.getSetup found, Option.isSome_or, held, Bool.or_true]
    · rw [founded.includeRefused absent]
      exact growsRefl registry

theorem performAllGrows (inserting : catalog.Inserting) (founded : Founded catalog registry)
    (operations : List (Operation ω)) :
    registry.Grows (registry.performAll catalog operations) := by
  induction operations generalizing registry with
  | nil => exact growsRefl registry
  | cons operation rest ih =>
    exact (performGrows inserting founded operation).trans (ih (performFounded founded operation))

theorem Grows.knows {before after : Registry ω} (grows : before.Grows after) (known : before.hasModule module = true) :
    after.hasModule module = true := by
  obtain ⟨functions, held⟩ := Option.isSome_iff_exists.mp known
  obtain ⟨more, still, _⟩ := grows module functions held
  rw [hasModule, Table.contains, still]
  rfl

theorem Grows.resolves {before after : Registry ω} (grows : before.Grows after)
    (resolved : (before.function? module name).isSome = true) : (after.function? module name).isSome = true := by
  rw [functionEq] at resolved ⊢
  cases known : before.modules.get? module with
  | none => simp [Registry.module, known] at resolved
  | some functions =>
    obtain ⟨more, still, kept⟩ := grows module functions known
    rw [moduleOf known] at resolved
    rw [moduleOf still]
    exact kept name resolved

theorem Founded.resolveDefault (founded : Founded catalog registry) {fault : Fault}
    (failed : registry.resolve Call.defaultModule name = .error fault) :
    fault = .unknownFunction Call.defaultModule name := by
  obtain ⟨functions, known⟩ := Option.isSome_iff_exists.mp founded.default
  unfold resolve at failed
  simp only [known] at failed
  split at failed
  · exact (Except.error.inj failed).symm
  · simp at failed

theorem includedOthers (loaded : registry.includeModule catalog.load module = (.ok (), after)) {other : Text}
    (different : other ≠ module) : after.modules.get? other = registry.modules.get? other := by
  rcases includeCases registry catalog module with ⟨setup, _, same⟩ | ⟨_, failed⟩
  · cases loaded.symm.trans same
    rw [Table.getInsert, if_neg (Ne.symm different)]
  · rw [loaded] at failed
    simp at failed

theorem includedFunction (inserting : catalog.Inserting)
    (loaded : registry.includeModule catalog.load module = (.ok (), after)) (name : Text) :
    after.function? module name = (catalog.function? module name).or (registry.function? module name) := by
  rcases includeCases registry catalog module with ⟨setup, found, same⟩ | ⟨_, failed⟩
  · cases loaded.symm.trans same
    rw [functionEq, functionEq, moduleInsert, inserting.getSetup found, Catalog.function?, found, Option.bind_some]
  · rw [loaded] at failed
    simp at failed

theorem includeAnswer (registry : Registry ω) (catalog : Catalog ω) (module : Text) :
    (registry.includeModule catalog.load module).1 =
      if catalog.contains module then .ok () else .error (.moduleNotFound module) := by
  rcases includeCases registry catalog module with ⟨setup, found, loaded⟩ | ⟨absent, failed⟩
  · rw [loaded, Table.contains, found]
    rfl
  · rw [failed, Table.contains, absent]
    rfl

theorem registryLaws (inserting : catalog.Inserting) (operations : List (Operation ω)) (registry : Registry ω)
    (reached : initial.performAll catalog operations = registry) :
    registry.hasModule Call.defaultModule = true ∧
    (∀ (gap name args : Text) (call : Call), (∀ c ∈ gap, Statement.isGap c = true) → Text.isIdentifier name = true →
      Statement.parseCall ('!' :: (gap ++ (name ++ ':' :: args))) = .ok call →
      ∀ missing, registry.resolve call.module call.name ≠ .error (.unknownModule missing)) ∧
    (∀ module, (registry.includeModule catalog.load module).1 =
      if catalog.contains module then .ok () else .error (.moduleNotFound module)) ∧
    (∀ module fault after, registry.includeModule catalog.load module = (.error fault, after) → after = registry) ∧
    (∀ module after, registry.includeModule catalog.load module = (.ok (), after) →
      (∀ other, other ≠ module → after.modules.get? other = registry.modules.get? other) ∧
      ∀ name, after.function? module name = (catalog.function? module name).or (registry.function? module name)) ∧
    ∀ later module, (registry.hasModule module = true → (registry.performAll catalog later).hasModule module = true) ∧
      ∀ name, (registry.function? module name).isSome = true →
        ((registry.performAll catalog later).function? module name).isSome = true := by
  subst reached
  have founded : Founded catalog (initial.performAll catalog operations) := performAllFounded initialFounded operations
  refine ⟨founded.default, ?_, includeAnswer _ catalog, ?_, ?_, fun later module => ?_⟩
  · intro gap name args call between identifier parsed missing failed
    rw [Statement.parseCallBare between identifier parsed] at failed
    have known := founded.resolveDefault failed
    simp at known
  · intro module fault after refused
    rcases includeCases (initial.performAll catalog operations) catalog module with ⟨_, _, loaded⟩ | ⟨absent, _⟩
    · simp [loaded] at refused
    · have same := founded.includeRefused absent
      rw [refused] at same
      exact same
  · intro module after loaded
    exact ⟨fun other different => includedOthers loaded different, includedFunction inserting loaded⟩
  · have grows := performAllGrows inserting founded later
    exact ⟨grows.knows, fun name => grows.resolves⟩

def constant (n : Int64) : HostFunction Unit := ⟨.fixed 0, fun _ world => (.ok (.int n), world)⟩

def bareCatalog : Catalog Unit :=
  (Catalog.empty.insert ['e'] id).insert ['m'] fun functions => functions.insert ['a'] (constant 1)

theorem bareInserting : bareCatalog.Inserting := by
  intro module setup found
  rw [bareCatalog, Table.getInsert, Table.getInsert] at found
  split at found
  · cases found
    exact ⟨Table.empty.insert ['a'] (constant 1), fun _ => rfl⟩
  · split at found
    · cases found
      exact ⟨Table.empty, fun _ => rfl⟩
    · cases found

theorem registryLawsBare : ∃ registry failed loaded : Registry Unit,
    initial.performAll bareCatalog [.register ['m'] ['a'] (constant 2), .register ['m'] ['b'] (constant 3),
      .load ['e']] = registry ∧
    registry.includeModule bareCatalog.load ['x'] = (.error (.moduleNotFound ['x']), failed) ∧ failed = registry ∧
    registry.includeModule bareCatalog.load ['m'] = (.ok (), loaded) ∧
    loaded.function? ['m'] ['a'] = some (constant 1) ∧ loaded.function? ['m'] ['b'] = some (constant 3) ∧
    loaded.modules.get? ['e'] = registry.modules.get? ['e'] ∧
    (registry.performAll bareCatalog [.load ['x'], .load ['e'], .load ['m']]).hasModule ['e'] = true := by
  obtain ⟨_, _, _, refused, included, lasting⟩ := registryLaws bareInserting
    [.register ['m'] ['a'] (constant 2), .register ['m'] ['b'] (constant 3), .load ['e']] _ rfl
  obtain ⟨others, functions⟩ := included ['m'] _ rfl
  exact ⟨_, _, _, rfl, rfl, refused ['x'] _ _ rfl, rfl, functions ['a'], functions ['b'], others ['e'] (by decide),
    (lasting _ ['e']).1 rfl⟩

end Registry
end Sigil
