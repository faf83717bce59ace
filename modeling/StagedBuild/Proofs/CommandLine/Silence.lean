import Mathlib.Tactic.ByContra
import StagedBuild.CommandLine.Request

/-!
# Asking for silence

A command line may ask for silence once more than it does.  Nothing else in the reading of it takes
notice: the request stays the same, with silence asked for.
-/

namespace StagedBuild
namespace CommandLine

/-- The options with silence asked for. -/
def Options.silence (options : Options) : Options :=
  { options with quiet := true }

/--
Reading keeps silence that was asked for before; where it does not ask for it by itself, it does the
same with silence asked for before.
-/
def HeedsSilence {α : Type} (read : Options → Except UsageError (Options × α)) : Prop :=
  ∀ options next answer, read options = .ok (next, answer) →
    (options.quiet = true → next.quiet = true) ∧
      (next.quiet = false → read options.silence = .ok (next.silence, answer))

namespace HeedsSilence

variable {α β : Type}

theorem error (problem : UsageError) :
    HeedsSilence fun _ => (.error problem : Except UsageError (Options × α)) := by
  intro options next answer read
  contradiction

theorem ok (answer : α) : HeedsSilence fun options => .ok (options, answer) := by
  intro options next answer read
  obtain ⟨rfl, rfl⟩ := Prod.mk.inj (Except.ok.inj read)
  exact ⟨id, fun _ => rfl⟩

theorem bind {first : Options → Except UsageError (Options × α)}
    {second : Options × α → Except UsageError (Options × β)} (first_heeds : HeedsSilence first)
    (second_heeds : ∀ answer, HeedsSilence fun options => second (options, answer)) :
    HeedsSilence fun options => (first options).bind second := by
  intro options last answer read
  cases first_eq : first options with
  | error problem => simp [first_eq, Except.bind] at read
  | ok pair =>
      rcases pair with ⟨next, between⟩
      simp only [first_eq, Except.bind] at read
      obtain ⟨kept, same⟩ := first_heeds _ _ _ first_eq
      obtain ⟨kept_on, same_on⟩ := second_heeds between _ _ _ read
      refine ⟨fun asked => kept_on (kept asked), fun loud => ?_⟩
      have loud_between : next.quiet = false := by
        by_contra asked
        rw [kept_on (by simpa using asked)] at loud
        contradiction
      simp only [same loud_between, Except.bind]
      exact same_on loud

/-- Changing options and then reading on. -/
theorem after {change : Options → Except UsageError Options}
    {read : Options → Except UsageError (Options × α)}
    (changes : HeedsSilence fun options => (change options).map (·, ()))
    (reads : HeedsSilence read) : HeedsSilence fun options => (change options).bind read := by
  have both : HeedsSilence fun options =>
      ((change options).map (·, ())).bind fun changed => read changed.1 :=
    changes.bind fun _ => reads
  intro options next answer
  have unfolded : ∀ options, ((change options).map (·, ())).bind (fun changed => read changed.1) =
      (change options).bind read := by
    intro options
    cases change options <;> rfl
  have heeds := both options next answer
  simp only [unfolded] at heeds
  exact heeds

end HeedsSilence

/-- A switch turned on keeps silence, and asks for it if it is the one that does. -/
theorem turnOn_heedsSilence (switch : Switch) :
    HeedsSilence fun options => (options.turnOn switch).map (·, ()) := by
  rintro ⟨verbose, quiet, color, manifestPath, tool, outDir, targets⟩ next answer read
  cases switch <;> cases verbose <;> cases quiet <;> cases read <;>
    simp [Options.turnOn, Options.silence, Except.map]

/-- A value given to a setting has nothing to do with silence. -/
theorem assign_heedsSilence (setting : Setting) (value : String) :
    HeedsSilence fun options => (options.assign setting value).map (·, ()) := by
  rintro ⟨verbose, quiet, color, manifestPath, tool, outDir, targets⟩ next answer read
  simp only [Options.assign] at read ⊢
  cases setting with
  | color =>
      cases color with
      | some given => contradiction
      | none =>
          cases chosen : ColorChoice.ofWord value with
          | error problem =>
              rw [chosen] at read
              cases read
          | ok choice =>
              rw [chosen] at read
              cases read
              exact ⟨id, fun _ => rfl⟩
  | manifestPath =>
      cases manifestPath with
      | some given => contradiction
      | none =>
          cases read_path : Options.pathValue .manifestPath value with
          | error problem =>
              rw [read_path] at read
              cases read
          | ok path =>
              rw [read_path] at read
              cases read
              exact ⟨id, fun _ => rfl⟩
  | tool =>
      cases tool with
      | some given => contradiction
      | none =>
          cases read
          exact ⟨id, fun _ => rfl⟩
  | outDir =>
      cases outDir with
      | some given => contradiction
      | none =>
          cases read_path : Options.pathValue .outDir value with
          | error problem =>
              rw [read_path] at read
              cases read
          | ok path =>
              rw [read_path] at read
              cases read
              exact ⟨id, fun _ => rfl⟩
  | target =>
      cases read
      exact ⟨id, fun _ => rfl⟩

theorem readLetters_heedsSilence (scope : Scope) (word : String) (letters : List Char) :
    HeedsSilence fun options => readLetters scope word options letters := by
  induction letters with
  | nil => exact .ok false
  | cons letter rest induction =>
      unfold readLetters
      split
      · exact .after (turnOn_heedsSilence _) induction
      · split
        · exact .ok true
        · exact .error _

theorem readWords_heedsSilence (scope : Scope) (words : List String) :
    HeedsSilence fun options => readWords scope options words := by
  have start : Options := {}
  induction start, words using readWords.induct scope
  all_goals (unfold readWords; try simp only [*])
  case case7 induction => exact .after (turnOn_heedsSilence _) (induction {})
  case case9 induction => exact .after (assign_heedsSilence _ _) (induction {})
  case case12 induction => exact .after (assign_heedsSilence _ _) (induction {})
  case case13 word rest letter letters _ _ _ induction =>
    refine .bind (readLetters_heedsSilence scope word (letter :: letters)) fun version => ?_
    cases version
    · exact induction {}
    · exact .ok _
  all_goals first | exact .ok _ | exact .error _

namespace Request

/-- In front of a command line, the switch changes nothing but that silence is asked for. -/
theorem ofWords_silence {words : List String} {options : Options} {action : Action} {flag : String}
    (switch : flag = "--quiet" ∨ flag = "-q")
    (requested : ofWords words = .ok (.act options action)) (loud : options.quiet = false) :
    ofWords (flag :: words) = .ok (.act options.silence action) := by
  have switched : readWords .front {} (flag :: words) =
      readWords .front (Options.silence {}) words := by
    obtain rfl | rfl := switch <;> rfl
  rw [ofWords] at requested ⊢
  rw [switched]
  cases read : readWords .front {} words with
  | error problem =>
      rw [read] at requested
      cases requested
  | ok ended =>
      obtain ⟨front, ending⟩ := ended
      rw [read] at requested
      obtain ⟨-, heeds⟩ := readWords_heedsSilence .front words {} front ending read
      dsimp only at heeds
      cases ending with
      | version => cases requested
      | finished =>
          cases requested
          rw [heeds loud]
          rfl
      | command command rest =>
          dsimp only [bind, Except.bind] at requested
          cases read_behind : readWords (.behind command) {} rest with
          | error problem => simp [read_behind] at requested
          | ok ended =>
              obtain ⟨behind, last⟩ := ended
              rw [read_behind] at requested
              cases requested
              obtain ⟨loud_front, -⟩ : front.quiet = false ∧ behind.quiet = false := by
                simpa [Options.merge] using loud
              rw [heeds loud_front]
              dsimp only [bind, Except.bind]
              rw [read_behind]
              rfl

end Request
end CommandLine
end StagedBuild
