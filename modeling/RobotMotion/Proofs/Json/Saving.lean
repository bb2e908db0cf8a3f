import RobotMotion.Proofs.Json.Commands

/-!
# What is saved comes back

Commands, tools, libraries, settings, poses, options, configurations and programs come back
from what was written of them: as values, with the fields of objects in any order, and as
texts, on one line or spread over lines (`Json.comes_back`).
-/

namespace RobotMotion

/-- The whole numbers in a command that has a text take at most 64 bits. -/
theorem Command.fits_of_printable {c : Command Float} (h : c.toJson.Printable) : c.Fits := by
  cases c
  case externalAxis index value target relative =>
    obtain ⟨-, ⟨⟨-, hindex⟩, -⟩, -⟩ := h
    show index < 2 ^ 64
    omega
  case wait millis =>
    obtain ⟨-, ⟨⟨-, hmillis⟩, -⟩, -⟩ := h
    show millis < 2 ^ 64
    omega
  all_goals trivial

theorem Program.printable (p : Program) : p.toJson.Printable := by
  have hlines : Json.PrintableItems (p.lines.map .text) := by
    induction p.lines with
    | nil => trivial
    | cons line rest ih => exact ⟨trivial, ih⟩
  exact ⟨trivial, trivial, hlines, trivial⟩

namespace Json

/-- Whether a value comes back from what is written of it, with the fields of objects in any
order: as it stands, and as a text. -/
structure ComesBack {β : Type} (toJson : β → Json) (ofJson? : Json → Option β) (x : β) :
    Prop where
  value : ∀ j, (toJson x).Reordered j → ofJson? j = some x
  text : ∀ j, (toJson x).Reordered j → ∀ s, (parse (j.render s)).bind ofJson? = some x

theorem ReadsAs.comesBack {β : Type} {toJson : β → Json} {ofJson? : Json → Option β} {x : β}
    (h : ReadsAs ofJson? (toJson x) x) (hprintable : (toJson x).Printable) :
    ComesBack toJson ofJson? x where
  value := h
  text j hj s := by
    rw [parse_render s (hj.same.2.2.mpr hprintable)]
    exact h j hj

/-- **What is saved comes back.** -/
theorem comes_back :
    (∀ c : Command Float, c.toJson.Printable → ComesBack Command.toJson Command.ofJson? c) ∧
      (∀ t : Tool Float, t.toJson.Printable → ComesBack Tool.toJson Tool.ofJson? t) ∧
      (∀ l : ToolLibrary, l.toJson.Printable →
        ComesBack ToolLibrary.toJson ToolLibrary.ofJson? l) ∧
      (∀ s : Settings Float, s.toJson.Printable →
        ComesBack Settings.toJson Settings.ofJson? s) ∧
      (∀ p : InitialPose Float, p.toJson.Printable →
        ComesBack InitialPose.toJson InitialPose.ofJson? p) ∧
      (∀ o : ProgramOptions, ComesBack ProgramOptions.toJson ProgramOptions.ofJson? o) ∧
      (∀ c : Config, c.toJson.Printable → ComesBack Config.toJson Config.ofJson? c) ∧
      (∀ p : Program, ComesBack Program.toJson Program.ofJson? p) :=
  ⟨fun _ h => (Command.readsAs (Command.fits_of_printable h)).comesBack h,
    fun t h => t.readsAs.comesBack h, fun l h => l.readsAs.comesBack h,
    fun s h => s.readsAs.comesBack h, fun p h => p.readsAs.comesBack h,
    fun o => o.readsAs.comesBack ⟨trivial, trivial, trivial, trivial⟩,
    fun c h => c.readsAs.comesBack h, fun p => p.readsAs.comesBack p.printable⟩

/-- A pose with a place beyond the thousands, and with two of six external axes set. -/
def halfKnown : InitialPose Float :=
  { InitialPose.unknown with
    position := some ⟨1234.5, -0.1, 0⟩
    externalAxes := some ⟨#v[some 100, none, none, some 1e-7, none, none]⟩ }

/-- What is absent from a pose stays absent. -/
theorem comes_back_halfKnown :
    halfKnown.toJson.Printable ∧ ComesBack InitialPose.toJson InitialPose.ofJson? halfKnown := by
  have hprintable : halfKnown.toJson.Printable :=
    ⟨⟨⟨rfl, rfl⟩, ⟨rfl, rfl⟩, ⟨rfl, rfl⟩, trivial⟩, trivial, trivial,
      ⟨⟨rfl, rfl⟩, trivial, trivial, ⟨rfl, rfl⟩, trivial, trivial, trivial⟩, trivial⟩
  exact ⟨hprintable, comes_back.2.2.2.2.1 halfKnown hprintable⟩

end Json

end RobotMotion
