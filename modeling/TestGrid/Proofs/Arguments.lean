import TestGrid.Command.Invocation
import TestGrid.Proofs.Pieces

/-!
# Command lines that are written out

A command line that names each of its settings by an option is read to just
these settings, whatever the environment is (`ofArguments_generate`,
`ofArguments_explain`).
-/

namespace TestGrid

open Files

/-- A path has a null character if and only if it is written with one. -/
theorem Files.Path.hasNull_ofText (t : Text) : (Path.ofText t).hasNull = t.contains '\x00' := by
  rw [Bool.eq_iff_iff, List.contains_iff_mem, Path.hasNull, List.any_eq_true]
  constructor
  · rintro ⟨part, hp, hn⟩
    exact Text.mem_of_mem_pieces (List.mem_filter.1 hp).1 (List.contains_iff_mem.1 hn)
  · intro hn
    obtain ⟨part, hp, hm⟩ := Text.exists_mem_pieces (· = '/') hn rfl
    refine ⟨part, List.mem_filter.2 ⟨hp, ?_⟩, List.contains_iff_mem.2 hm⟩
    have hne : part ≠ [] := List.ne_nil_of_mem hm
    have hdot : part ≠ ['.'] := by
      rintro rfl
      exact absurd (List.mem_singleton.1 hm) (by decide)
    simp [Path.isPart, hne, hdot]

namespace Command

namespace OptionTable

variable {table : OptionTable} {arg value : Text} {args : List Text}

/-- An argument that does not start with a hyphen is positional. -/
theorem readArgument_of_head? (h : arg.head? ≠ some '-') :
    table.readArgument arg = .positional := by
  unfold readArgument
  split
  · exact absurd rfl h
  · exact absurd rfl h
  · exact absurd rfl h
  · rfl

theorem read_positional (h : table.readArgument arg = .positional) :
    table.read (arg :: args) = (table.read args).map (·.withPositional arg) := by
  rw [read, h]

/-- An option takes the next argument as its value, whatever that is. -/
theorem read_awaiting {o : OptionName} (h : table.readArgument arg = .awaiting [] o) :
    table.read (arg :: value :: args) = (table.read args).map (·.withOptions [(o, value)]) := by
  rw [read, h]
  rfl

end OptionTable

open Invocation OptionTable

/-- The option that says whether literals may stand in. -/
def fallbackArgument (fallback : Bool) : Text :=
  if fallback then "--include-case-specific".toList else "--no-include-case-specific".toList

/-- The arguments that ask for an explanation. -/
def explainArguments (component candidates rules : Text) (fallback : Bool) : List Text :=
  ["explain".toList, component, "--candidates".toList, candidates, "--rules".toList, rules,
    fallbackArgument fallback]

/-- The arguments that ask for a grid. -/
def generateArguments (candidates rules output : Text) (fallback : Bool) : List Text :=
  ["generate".toList, "--candidates".toList, candidates, "--rules".toList, rules,
    "--output".toList, output, fallbackArgument fallback]

variable (env : Environment) {component candidates rules output : Text} (fallback : Bool)

theorem ofArguments_explain (hc : component.head? ≠ some '-')
    (hr : (Path.ofText rules).hasNull = false) :
    ofArguments env (explainArguments component candidates rules fallback) =
      .explain ⟨component, some candidates, some (.ofText rules), fallback⟩ := by
  let given : Given := ⟨[(.candidates, candidates), (.rules, rules),
    (if fallback then .withFallback else .withoutFallback, [])], [component]⟩
  have hread : inputOptions.read (explainArguments component candidates rules fallback).tail =
      some given := by
    rw [explainArguments, List.tail_cons, read_positional (readArgument_of_head? hc),
      read_awaiting (o := .candidates) rfl, read_awaiting (o := .rules) rfl]
    cases fallback <;> rfl
  have hpath : hasImpossiblePath given = false := by
    have hv : [.rules, .output, .logFile].filterMap given.value? = [rules] := by
      cases fallback <;> rfl
    rw [hasImpossiblePath, hv, List.any_cons, List.any_nil, Bool.or_false,
      ← Path.hasNull_ofText, hr]
  show orHelp inputOptions (explainArguments component candidates rules fallback).tail
    (ofExplain env) = _
  rw [orHelp, hread]
  dsimp only
  rw [hpath]
  cases fallback <;> rfl

theorem ofArguments_generate (hr : (Path.ofText rules).hasNull = false)
    (ho : (Path.ofText output).hasNull = false) :
    ofArguments env (generateArguments candidates rules output fallback) =
      .generate { settings :=
        ⟨some candidates, some (.ofText rules), some (.ofText output), fallback⟩ } := by
  let given : Given := ⟨[(.candidates, candidates), (.rules, rules), (.output, output),
    (if fallback then .withFallback else .withoutFallback, [])], []⟩
  have hread : generateTable.read (generateArguments candidates rules output fallback).tail =
      some given := by
    rw [generateArguments, List.tail_cons, read_awaiting (o := .candidates) rfl,
      read_awaiting (o := .rules) rfl, read_awaiting (o := .output) rfl]
    cases fallback <;> rfl
  have hpath : hasImpossiblePath given = false := by
    have hv : [.rules, .output, .logFile].filterMap given.value? = [rules, output] := by
      cases fallback <;> rfl
    rw [hasImpossiblePath, hv, List.any_cons, List.any_cons, List.any_nil, Bool.or_false,
      ← Path.hasNull_ofText, ← Path.hasNull_ofText, hr, ho]
    rfl
  show orHelp generateTable (generateArguments candidates rules output fallback).tail
    (ofGenerate env) = _
  rw [orHelp, hread]
  dsimp only
  rw [hpath]
  cases fallback <;> rfl

end Command

end TestGrid
