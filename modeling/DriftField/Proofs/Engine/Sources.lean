import Mathlib
import DriftField.Proofs.Engine.Operation
import DriftField.Proofs.Expr.Lines
import DriftField.Proofs.Expr.Nesting
import DriftField.Proofs.Grammar.Shape
/-!
Field sources and the limits of fields. The trees that a text reads as are never too deep and have finite literals, so a
source that reads is refused for the size of its trees alone.
-/

namespace DriftField

namespace Components

theorem limits_of_assigns {c : Coordinate} {e : Expr} {line : List Char} (assigns : Assigns c e line) :
    e.depth ≤ Expr.greatestDepth ∧ e.literalsFinite = true := by
  obtain ⟨before, after, -, -, -, read⟩ := assigns
  exact Expr.limits_of_ofText read

/-- No field is made of a source: it does not read, or its trees have too many nodes. -/
def Refused (code : String) : Prop :=
  (∃ error, parse code = .error error) ∨ ∃ c, parse code = .ok c ∧ 4096 < c.size

theorem of?_eq_none_iff_of_parse {code : String} {c : Components} (read : parse code = .ok c) :
    FormulaField.of? c = none ↔ 4096 < c.size := by
  change _ ↔ greatestSize < c.size
  obtain ⟨first, second, -, -, horizontal, vertical, -⟩ := parse_eq_ok_iff_describes.mp read
  obtain ⟨shallow, finite⟩ := limits_of_assigns horizontal
  obtain ⟨shallow', finite'⟩ := limits_of_assigns vertical
  rw [FormulaField.of?_eq_none_iff finite finite', or_iff_left]
  omega

theorem refused_iff (code : String) :
    Refused code ↔ ¬ ∃ f, FormulaField.ofSource code = .ok (some f) := by
  unfold Refused FormulaField.ofSource
  cases read : parse code with
  | error error => exact iff_of_true (.inl ⟨error, rfl⟩) nofun
  | ok c =>
      have large := of?_eq_none_iff_of_parse read
      simp only [reduceCtorEq, exists_false, false_or, Except.ok.injEq, exists_eq_left']
      rw [← large]
      change _ ↔ ¬ ∃ f, Except.ok (FormulaField.of? c) = .ok (some f)
      simp only [Except.ok.injEq, ← Option.isSome_iff_exists, Option.isSome_iff_ne_none, not_not]

end Components

namespace Engine.Operation

open Components (Refused)
open Expr.Counting (Keeps innerRules nameOf nested readerOf)

variable {e : Engine} {code : String}

theorem loadSource_refused {error : SourceError} (read : Components.parse code = .error error) :
    (loadSource code).perform e = (.error (.source error), e) :=
  perform_eq_error.mpr ⟨loadSource_eq_error.mpr (.inl ⟨error, read, rfl⟩), rfl⟩

theorem loadSource_tooLarge {c : Components} (read : Components.parse code = .ok c)
    (large : 4096 < c.size) : (loadSource code).perform e = (.error .tooLarge, e) :=
  perform_eq_error.mpr
    ⟨loadSource_eq_error.mpr (.inr ⟨c, read, (Components.of?_eq_none_iff_of_parse read).mpr large, rfl⟩), rfl⟩

theorem refused_of_loadSource {fault : Fault} {next : Engine}
    (failed : (loadSource code).perform e = (.error fault, next)) : Refused code := by
  rcases loadSource_eq_error.mp (perform_eq_error.mp failed).1 with ⟨error, read, -⟩ | ⟨c, read, unsound, -⟩
  · exact .inl ⟨error, read⟩
  · exact .inr ⟨c, read, (Components.of?_eq_none_iff_of_parse read).mp unsound⟩

/-- Whatever text reads as an expression, it is within the limits of fields. Reading with a counter is reading, and
after each of the rules the counter is where it was and the depth is that of the tree. So a source makes no field, and
does not load, exactly if it does not read or its trees have too many nodes; the failure is one of size in the second
case and of the source in the first. -/
theorem sources_within_limits :
    (∀ text t, Expr.parse text = .ok t → t.depth ≤ 128 ∧ t.literalsFinite = true) ∧
    (∀ text, Expr.Counting.parse text = Expr.parse text) ∧
    (∀ stop levels n tokens,
      (∀ phrase, Keeps n (readerOf stop (innerRules stop levels) phrase tokens)) ∧
      (∀ offset name, Keeps n (nameOf stop (innerRules stop levels) offset name tokens)) ∧
      ∀ offset, Keeps n (nested offset (innerRules stop levels) (·.condition tokens)) ∧
        Keeps n (nested offset (innerRules stop levels) (·.primary tokens))) ∧
    (∀ code, (¬ ∃ f, FormulaField.ofSource code = .ok (some f)) ↔ Refused code) ∧
    (∀ e code, (∃ fault next, (loadSource code).perform e = (.error fault, next)) ↔ Refused code) ∧
    ∀ e code,
      (∀ error, Components.parse code = .error error →
        (loadSource code).perform e = (.error (.source error), e)) ∧
      ∀ c, Components.parse code = .ok c → 4096 < c.size →
        (loadSource code).perform e = (.error .tooLarge, e) := by
  refine ⟨fun _ _ => Expr.limits_of_ofText, Expr.Counting.parse_eq, fun stop levels n tokens => ⟨?_, ?_, ?_⟩,
    fun code => (Components.refused_iff code).symm, fun e code => ⟨?_, ?_⟩, fun e code => ⟨?_, ?_⟩⟩
  · exact fun phrase => Expr.Counting.keeps_readerOf stop levels n phrase tokens
  · exact fun offset name => Expr.Counting.keeps_nameOf stop levels n offset name tokens
  · exact fun offset => Expr.Counting.keeps_nested stop levels n offset tokens
  · rintro ⟨fault, next, failed⟩
    exact refused_of_loadSource failed
  · rintro (⟨error, read⟩ | ⟨c, read, large⟩)
    · exact ⟨_, _, loadSource_refused read⟩
    · exact ⟨_, _, loadSource_tooLarge read large⟩
  · exact fun error read => loadSource_refused read
  · exact fun c read large => loadSource_tooLarge read large

def balanced : Nat → Expr
  | 0 => Expr.x
  | n + 1 => .binary .add (balanced n) (balanced n)

/-- A pair with as many nodes as a field may have loads, and with one node more it is refused for its size. -/
theorem balanced_within_limits :
    let fits : Components := ⟨balanced 11, Expr.y⟩
    let large : Components := ⟨balanced 11, .call .abs Expr.y⟩
    fits.size = 4096 ∧ large.size = 4097 ∧
      (∃ t, Expr.parse "-(x*2.5)" = .ok t ∧ t.depth ≤ 128 ∧ t.literalsFinite = true) ∧
      (¬ ∃ f, FormulaField.ofSource "dx" = .ok (some f)) ∧ (∃ f, FormulaField.ofSource fits.source = .ok (some f)) ∧
      ∃ e : Engine, (∃ error, (loadSource "dx").perform e = (.error (.source error), e)) ∧
        (loadSource large.source).perform e = (.error .tooLarge, e) ∧
        ¬ ∃ fault next, (loadSource fits.source).perform e = (.error fault, next) := by
  intro fits large
  have shallow : (balanced 11).depth ≤ Expr.greatestDepth := by decide +kernel
  have finite : (balanced 11).literalsFinite = true := by decide +kernel
  have size : (balanced 11).size = 4095 := by decide +kernel
  have fitsSize : fits.size = 4096 := congrArg (· + 1) size
  have largeSize : large.size = 4097 := congrArg (· + 2) size
  have readFits : Components.parse fits.source = .ok fits :=
    Components.parse_source_of_shallow shallow (by decide) finite rfl
  have readLarge : Components.parse large.source = .ok large :=
    Components.parse_source_of_shallow shallow (by decide) finite rfl
  have accepted : ¬ Refused fits.source := by
    rintro (⟨error, refused⟩ | ⟨c, read, more⟩)
    · rw [readFits] at refused
      cases refused
    · rw [readFits] at read
      cases read
      omega
  obtain ⟨error, refused⟩ : ∃ error, Components.parse "dx" = .error error := by
    have unread : (Components.parse "dx").toOption.isNone = true := by decide +kernel
    cases read : Components.parse "dx" with
    | error error => exact ⟨error, rfl⟩
    | ok c =>
        rw [read] at unread
        cases unread
  obtain ⟨t, read⟩ : ∃ t, Expr.parse "-(x*2.5)" = .ok t := by
    have reads : (Expr.parse "-(x*2.5)").toOption.isSome = true := by decide +kernel
    obtain ⟨t, read⟩ := Option.isSome_iff_exists.mp reads
    exact ⟨t, toOption_eq_some_iff.mp read⟩
  obtain ⟨e, -⟩ := start_noise { Settings.standard with strategy := .noise } rfl ⟨800.0, 600.0, by decide⟩ 3
  obtain ⟨limits, -, -, field, load, fault⟩ := sources_within_limits
  refine ⟨fitsSize, largeSize, ⟨t, read, limits _ _ read⟩, (field _).mpr (.inl ⟨error, refused⟩), ?_, e,
    ⟨error, (fault e _).1 _ refused⟩, (fault e _).2 _ readLarge (by omega), fun failed => ?_⟩
  · exact not_not.mp fun none => accepted ((field _).mp none)
  · exact accepted ((load e _).mp failed)

end Engine.Operation

end DriftField
