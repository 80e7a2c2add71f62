import Polyad.Proofs.Config.Header

/-!
# Modules of a configuration in import lines

The import blocks of both texts take names from fixed modules of the standard library, from the
runtime and, in the text of concrete classes, from the other file. The parts of all of them are
identifiers, as the check of a configuration sees to. That they are no reserved words is what it
leaves to the configuration.
-/

namespace Polyad

namespace Generated

open Code Text

variable {f : Family} {n : Nat} {runtime contracts name : String} {file : File} {i : Import}

/-- The modules of the standard library that generated files take something from. -/
def standardPaths : List String := ["__future__", "abc", "typing", "warnings"]

theorem path_of_mem_emittedImports (mem : i ∈ emittedImports runtime) :
    i.path ∈ runtime :: standardPaths := by
  simp only [emittedImports, List.cons_append, List.mem_cons, List.mem_append] at mem
  rcases mem with rfl | rfl | typing | support
  · exact List.mem_cons_of_mem _ (by decide)
  · exact List.mem_cons_of_mem _ (by decide)
  · obtain ⟨s, -, rfl⟩ := List.mem_map.1 typing
    exact List.mem_cons_of_mem runtime (by decide : "typing" ∈ standardPaths)
  · obtain ⟨s, -, rfl⟩ := List.mem_map.1 support
    exact List.mem_cons_self

/-- A file asks for things from modules of these paths and from the standard library, by names that
are identifiers. -/
structure Takes (file : File) (paths : List String) : Prop where
  named : ∀ i ∈ file.allImports, i.isWellNamed
  within : ∀ i ∈ file.allImports, i.path ∈ paths ++ standardPaths
  each : ∀ path ∈ paths, ∃ i ∈ file.allImports, i.path = path
  parts : ∀ path ∈ paths, ∀ part ∈ pathParts path, isIdentifier part

namespace Takes

variable {paths : List String}

theorem ne_nil (t : Takes file (runtime :: paths)) : file.allImports ≠ [] := by
  obtain ⟨i, mem, -⟩ := t.each runtime List.mem_cons_self
  exact List.ne_nil_of_mem mem

theorem isIdentifier (t : Takes file paths) (mem : i ∈ file.allImports) :
    ∀ part ∈ pathParts i.path, Text.isIdentifier part := by
  have standard : ∀ path ∈ standardPaths, ∀ part ∈ pathParts path, Text.isIdentifier part := by
    decide +kernel
  rcases List.mem_append.1 (t.within i mem) with own | fixed
  · exact t.parts _ own
  · exact standard _ fixed

/-- All that a file asks for can be imported if its modules can. -/
theorem isImportable_iff (t : Takes file paths) :
    (∀ i ∈ file.allImports, isImportable i.path) ↔
      ∀ path ∈ paths, ∀ part ∈ pathParts path, isHardKeyword part = false := by
  have standard : ∀ path ∈ standardPaths, isImportable path := by decide +kernel
  constructor
  · intro all path mem
    obtain ⟨i, own, rfl⟩ := t.each path mem
    exact (Text.isImportable_iff (t.parts _ mem)).1 (all i own)
  · intro free i mem
    rcases List.mem_append.1 (t.within i mem) with own | fixed
    · exact (Text.isImportable_iff (t.parts _ own)).2 (free _ own)
    · exact standard _ fixed

end Takes

theorem parts_of_isDottedPath (path : isDottedPath runtime) :
    ∀ part ∈ pathParts runtime, isIdentifier part := by
  rw [pathParts_of_isDottedPath path]
  exact List.all_eq_true.1 path

theorem takes_contracts (path : isDottedPath runtime)
    (emitted : contractsFile f runtime name = .ok file) : Takes file [runtime] := by
  obtain ⟨imports, asks, marker⟩ := contractsFile_asks emitted
  have asked : ∀ i ∈ file.allImports, i = annotationsImport ∨ i ∈ emittedImports runtime := by
    intro i mem
    have mem := mem_of_mem_collectImports asks (File.mem_collectImports.2 mem)
    rw [imports] at mem
    exact List.mem_cons.1 mem
  refine ⟨fun i mem => ?_, fun i mem => ?_, ?_, ?_⟩
  · rcases asked i mem with rfl | emitted
    · decide
    · exact isWellNamed_of_mem_emittedImports path emitted
  · rcases asked i mem with rfl | emitted
    · exact List.mem_cons_of_mem _ List.mem_cons_self
    · exact path_of_mem_emittedImports emitted
  · exact List.forall_mem_singleton.2 ⟨_, marker, rfl⟩
  · exact List.forall_mem_singleton.2 (parts_of_isDottedPath path)

/-- A whole number from zero on consists of digits. -/
theorem all_isNamePart_toString (k : Nat) : (toString (k : Int)).toList.all isNamePart := by
  have chars : (toString (k : Int)).toList = Nat.toDigits 10 k := Nat.toList_repr
  rw [chars, List.all_eq_true]
  intro c mem
  simp [isNamePart, Nat.isDigit_of_mem_toDigits (by decide) (by decide) mem]

/-- The names that the file of concrete classes of a built family takes from the other one. -/
theorem isIdentifier_of_built :
    (∀ s ∈ concreteVarsOf (Family.builtMember n n), isIdentifier s) ∧
      ∀ m ∈ (Family.built n).members, isIdentifier m.interfaceName := by
  have letters : Naming.letters.all (isNameStart ·.toUpper) := by decide +kernel
  have params : ∀ s ∈ (Family.builtMember n n).typeParams, isIdentifier s := by
    intro s mem
    obtain ⟨l, there, rfl⟩ := List.mem_map.1 mem
    exact isIdentifier_singleton (List.all_eq_true.1 letters l (List.mem_of_mem_take there))
  have helpers : ∀ s ∈ [nextType, resultType, elementType, keyType, valueType],
      isIdentifier s := by decide +kernel
  constructor
  · intro s mem
    rcases List.mem_append.1 (List.mem_filter.1 mem).1 with position | helper
    · rcases List.mem_append.1 position with own | other
      · exact params s own
      · obtain ⟨t, own, rfl⟩ := List.mem_map.1 other
        exact isIdentifier_append (params t own) (by decide +kernel)
    · exact helpers s helper
  · intro m mem
    obtain ⟨k, -, rfl⟩ := Family.mem_built_iff.1 mem
    exact isIdentifier_append (by decide +kernel) (all_isNamePart_toString k)

theorem takes_concretes (path : isDottedPath runtime) (sibling : isIdentifier contracts)
    (emitted : concretesFile (Family.built n) runtime contracts name = .ok file) :
    Takes file [runtime, "." ++ contracts] := by
  obtain ⟨⟨vars, declared, imports⟩, asks, marker⟩ := concretesFile_asks emitted
  rw [concreteTypeVars_eq (Family.terminal?_built n)] at declared
  cases declared
  obtain ⟨vars, interfaces⟩ := isIdentifier_of_built (n := n)
  have parts : ∀ part ∈ pathParts ("." ++ contracts), isIdentifier part := by
    rw [pathParts_sibling sibling]
    exact List.forall_mem_singleton.2 sibling
  have taken {s : String} (named : isIdentifier s) :
      Import.isWellNamed ⟨"." ++ contracts, some s⟩ := by
    rw [Import.isWellNamed, isModulePath_of_pathParts parts]
    exact isModulePath_of_isDottedPath (isDottedPath_of_isIdentifier named)
  have asked : ∀ i ∈ file.allImports, i ∈ file.imports ∨ i ∈ emittedImports runtime := fun i mem =>
    List.mem_append.1 (mem_of_mem_collectImports asks (File.mem_collectImports.2 mem))
  simp only [imports, Import.several, List.cons_append, List.mem_cons, List.mem_append,
    List.mem_map] at asked
  refine ⟨fun i mem => ?_, fun i mem => ?_, ?_, ?_⟩
  · rcases asked i mem with (rfl | (⟨s, own, rfl⟩ | ⟨_, ⟨m, own, rfl⟩, rfl⟩) | ⟨s, own, rfl⟩) | emitted
    · decide
    · exact taken (vars s own)
    · exact taken (interfaces m own)
    · rw [(by simpa using own : s = "Callable")]
      decide +kernel
    · exact isWellNamed_of_mem_emittedImports path emitted
  · rcases asked i mem with (rfl | (⟨s, -, rfl⟩ | ⟨s, -, rfl⟩) | ⟨s, -, rfl⟩) | emitted
    · simp [annotationsImport, standardPaths]
    · simp
    · simp
    · simp [standardPaths]
    · rcases List.mem_cons.1 (path_of_mem_emittedImports emitted) with own | fixed
      · simp [own]
      · exact List.mem_append_right _ fixed
  · have null : (⟨"." ++ contracts, some (Family.built n).null.interfaceName⟩ : Import) ∈
        file.allImports := by
      refine List.mem_append_left _ ?_
      rw [imports]
      refine List.mem_append_left _ (List.mem_append_right _ (List.mem_map_of_mem ?_))
      exact List.mem_map_of_mem (List.head_mem _)
    simp only [List.forall_mem_cons]
    exact ⟨⟨_, marker, rfl⟩, ⟨_, null, rfl⟩, fun _ none => absurd none List.not_mem_nil⟩
  · simp only [List.forall_mem_cons]
    exact ⟨parts_of_isDottedPath path, parts, fun _ none => absurd none List.not_mem_nil⟩

end Generated

namespace Config

open Code Text Generated

variable {s : Settings} {c : Config} {f : Family}

/-- What is known of the modules in the import blocks of both texts: all of their parts are
identifiers, and they can be imported if the configuration names no reserved word. -/
structure ModulesRead (c : Config) (block block' : List String) : Prop where
  parts : ∀ i ∈ (block ++ block').flatMap readImportLine,
    ∀ part ∈ pathParts i.path, isIdentifier part
  contracts : (∀ i ∈ block.flatMap readImportLine, isImportable i.path) ↔
    ∀ part ∈ dotParts c.runtimeModule.text, isHardKeyword part = false
  concretes : (∀ i ∈ block'.flatMap readImportLine, isImportable i.path) ↔
    (∀ part ∈ dotParts c.runtimeModule.text, isHardKeyword part = false) ∧
      isHardKeyword c.interfacesModule = false

/-- A configuration that is in order renders its family if its header can be read as lines, these can
be told, and its runtime is a text. The import blocks of both texts name modules by identifiers; they
can all be compiled exactly if neither the runtime nor the module of the contracts is named by a
reserved word. -/
theorem modules_read (passed : s.check = .ok c) (plain : c.formatter = .plain)
    (built : Family.buildFrom c.maxArity = .ok f) (reformat : Reformatter) :
    ((∃ r, c.render reformat = .ok r) ↔
      (∃ header, c.headerLines = .ok header) ∧ c.tellHeader = .ok () ∧
        ∃ path, c.runtimeModule = .str path) ∧
    ∀ r, c.render reformat = .ok r → ∃ header contracts concretes block block',
      c.headerLines = .ok header ∧ c.files f = .ok (contracts, concretes) ∧
      BlockBelow contracts header r.contracts block ∧
      BlockBelow concretes header r.concretes block' ∧ ModulesRead c block block' := by
  obtain ⟨-, path⟩ := Settings.header_of_check passed
  obtain ⟨sibling, -⟩ := Settings.isIdentifier_of_check passed
  obtain ⟨n, -, -, rfl⟩ := built_of_buildFrom built
  obtain ⟨contracts, concretes, -, -, files, -, -⟩ := exists_files built path []
  obtain ⟨own, first, rest⟩ := Error.bind_eq_ok_iff.1 files
  obtain ⟨own', second, eq⟩ := Error.bind_eq_ok_iff.1 rest
  cases eq
  have taken := takes_contracts path first
  have taken' := takes_concretes path sibling second
  obtain ⟨block, all⟩ := exists_blockBelow taken.named taken.ne_nil
  obtain ⟨block', all'⟩ := exists_blockBelow taken'.named taken'.ne_nil
  cases lines : c.headerLines with
  | error e =>
    have fails : c.render reformat = .error e := by
      rw [render, built]
      change c.renderFamily reformat _ = _
      rw [renderFamily, lines]
      rfl
    rw [fails]
    exact ⟨by simp, fun _ run => by cases run⟩
  | ok header =>
    obtain ⟨text, written, below⟩ := all header
    obtain ⟨text', written', below'⟩ := all' header
    have rendered := render_eq_ok_iff built lines files
      ((finish_plain plain reformat).symm ▸ written)
      ((finish_plain plain reformat).symm ▸ written')
    refine ⟨⟨?_, ?_⟩, fun r run => ?_⟩
    · rintro ⟨r, run⟩
      obtain ⟨told, runtime, -⟩ := (rendered r).1 run
      exact ⟨⟨header, rfl⟩, told, runtime⟩
    · rintro ⟨_, told, runtime⟩
      exact ⟨_, (rendered _).2 ⟨told, runtime, rfl⟩⟩
    obtain ⟨-, -, rfl⟩ := (rendered r).1 run
    refine ⟨header, contracts, concretes, block, block', rfl, files, below, below', ?_, ?_, ?_⟩
    · rw [List.flatMap_append, List.forall_mem_append]
      exact ⟨fun i mem => taken.isIdentifier ((below.asked i).1 mem),
        fun i mem => taken'.isIdentifier ((below'.asked i).1 mem)⟩
    · simp only [below.asked, taken.isImportable_iff, List.forall_mem_singleton,
        pathParts_of_isDottedPath path]
    · simp only [below'.asked, taken'.isImportable_iff, List.forall_mem_cons,
        pathParts_of_isDottedPath path, pathParts_sibling sibling]
      simp

/-- A configuration that names the file of contracts by a reserved word. -/
def reservedModule : Config :=
  { Config.default with maxArity := .int 1, interfacesModule := "class", formatter := .plain }

/-- It is in order, and its concrete classes ask for things from a module that has no name. -/
theorem reservedModule_read :
    reservedModule.toSettings.check = .ok reservedModule ∧
    ∃ r, ∃ header block' rest : List String, reservedModule.render Code.reformat = .ok r ∧
      Text.lines r.concretes = header.flatMap commentRows ++ (block' ++ rest) ∧
      ¬∀ i ∈ block'.flatMap readImportLine, isImportable i.path := by
  have passed : reservedModule.toSettings.check = .ok reservedModule := rfl
  have built : Family.buildFrom reservedModule.maxArity = .ok (Family.built 1) :=
    Family.build_natCast (Nat.le_refl 1) (by decide)
  obtain ⟨rendered, read⟩ := modules_read passed rfl built Code.reformat
  obtain ⟨r, run⟩ := rendered.2 ⟨⟨_, headerLines_eq rfl⟩, tellHeader_eq rfl, _, rfl⟩
  obtain ⟨header, contracts, concretes, block, block', -, -, -, below, known⟩ := read r run
  obtain ⟨rest, lies⟩ := below.below
  refine ⟨passed, r, header, block', rest, run, lies, fun all => ?_⟩
  have free : Text.isHardKeyword "class" = false := (known.concretes.1 all).2
  revert free
  decide

end Config
end Polyad
