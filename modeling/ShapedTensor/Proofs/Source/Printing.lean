import ShapedTensor.Display
import ShapedTensor.Proofs.Index.Walk

namespace ShapedTensor

open Index

variable {T : Type}

section Run

variable {m : Type → Type} [Monad m] {ι α : Type}

/-- A run over a list depends on its results at the listed items only. -/
theorem Index.mapM_congr [LawfulMonad m] {items : List ι} {entry other : ι → m α}
    (same : ∀ item ∈ items, entry item = other item) : items.mapM entry = items.mapM other := by
  induction items with
  | nil => rfl
  | cons item items ih =>
      rw [List.mapM_cons, List.mapM_cons, same item (by simp),
        ih fun other listed => same other (by simp [listed])]

end Run

namespace Text

/-- What stands before the text of a position: a comma, unless it is the first. -/
def comma (position : Nat) : String := if 0 < position then ", " else ""

/-- Texts from a start position on, each behind its comma. -/
def separated : (start : Nat) → List String → String
  | _, [] => ""
  | start, text :: texts => comma start ++ text ++ separated (start + 1) texts

/-- Texts from the first position on have a comma between them. -/
theorem separated_eq (texts : List String) : separated 0 texts = ", ".intercalate texts := by
  have behind (texts : List String) : ∀ start text, text ++ separated (start + 1) texts =
      ", ".intercalate (text :: texts) := by
    induction texts with
    | nil => simp [separated]
    | cons next texts ih =>
        intro start text
        rw [separated, String.intercalate_cons_cons, ← ih (start + 1) next]
        simp [comma, String.append_assoc]
  cases texts with
  | nil => simp [separated]
  | cons text texts =>
      rw [separated, ← behind texts 0 text]
      simp [comma]

end Text

namespace Printing

/-- An action writes a text behind fixed coordinates when it appends the text and keeps these coordinates,
whatever the others are. -/
def Writes (fixed : List Nat) (rank : Nat) (action : Printing → Except Fault Printing)
    (text : Except Fault String) : Prop :=
  ∀ written rest, rest.length = rank → ∃ last : List Nat, last.length = rank ∧
    action ⟨written, fixed ++ rest⟩ = (fun text => ⟨written ++ text, fixed ++ last⟩) <$> text

/-- A loop whose steps write their texts behind commas writes all of them. -/
theorem writes_countM {step : Printing → Nat → Except Fault Printing} {fixed : List Nat} {rank : Nat}
    {part : Nat → Except Fault String}
    (steps : ∀ position, Writes fixed rank (step · position)
      ((Text.comma position ++ ·) <$> part position)) (start count : Nat) :
    Writes fixed rank (countM step start count)
      (Text.separated start <$> (List.range' start count).mapM part) := by
  induction count generalizing start with
  | zero =>
      intro written rest length
      refine ⟨rest, length, ?_⟩
      change Except.ok _ = Except.ok _
      simp [Text.separated]
  | succ count ih =>
      intro written rest length
      obtain ⟨middle, middleLength, first⟩ := steps start written rest length
      change step _ start = _ at first
      rw [countM, first, List.range'_succ, List.mapM_cons]
      cases part start with
      | error fault => exact ⟨rest, length, rfl⟩
      | ok text =>
          obtain ⟨last, lastLength, others⟩ :=
            ih (start + 1) (written ++ (Text.comma start ++ text)) middle middleLength
          refine ⟨last, lastLength, ?_⟩
          change countM step (start + 1) count _ = _
          rw [others]
          cases (List.range' (start + 1) count).mapM part with
          | error fault => rfl
          | ok texts =>
              change Except.ok _ = Except.ok _
              simp [Text.separated, String.append_assoc]

end Printing

namespace Source

variable [ElementText T]

/-- The text of the elements whose index begins with fixed coordinates, over the sizes that follow. -/
def textFrom (source : Source T) (fixed : List Nat) : (sizes : List Nat) → Except Fault String
  | [] => ElementText.display <$> source.read fixed
  | size :: sizes => Text.bracketed <$> (List.range size).mapM fun position =>
      textFrom source (fixed ++ [position]) sizes

/-- An axis writes the text of the elements behind the coordinates before it. -/
theorem writes_axis (source : Source T) (fixed sizes : List Nat) :
    Printing.Writes fixed sizes.length (source.writeAxis fixed.length sizes)
      (source.textFrom fixed sizes) := by
  induction sizes generalizing fixed with
  | nil =>
      intro written rest length
      obtain rfl := List.eq_nil_of_length_eq_zero length
      refine ⟨[], rfl, ?_⟩
      rw [writeAxis, textFrom, List.append_nil]
      cases source.read fixed <;> rfl
  | cons size sizes ih =>
      -- The coordinate of this axis is set before a slice is written, so the slice finds it fixed.
      have steps (position : Nat) : Printing.Writes fixed (sizes.length + 1)
          (fun printing => source.writeAxis (fixed.length + 1) sizes
            ((if 0 < position then printing.write ", " else printing).move fixed.length position))
          ((Text.comma position ++ ·) <$> source.textFrom (fixed ++ [position]) sizes) := by
        intro written rest length
        obtain ⟨first, rest, rfl⟩ := List.exists_cons_of_length_eq_add_one length
        obtain ⟨last, lastLength, run⟩ :=
          ih (fixed ++ [position]) (written ++ Text.comma position) rest (by simpa using length)
        refine ⟨position :: last, by simp [lastLength], ?_⟩
        have moved : (if 0 < position then (⟨written, fixed ++ first :: rest⟩ : Printing).write ", "
            else ⟨written, fixed ++ first :: rest⟩).move fixed.length position =
              ⟨written ++ Text.comma position, fixed ++ [position] ++ rest⟩ := by
          split <;> simp_all [Printing.write, Printing.move, Text.comma]
        rw [List.length_append, List.length_singleton] at run
        dsimp only
        rw [moved, run]
        cases source.textFrom (fixed ++ [position]) sizes with
        | error fault => rfl
        | ok text =>
            change Except.ok _ = Except.ok _
            simp [String.append_assoc]
      intro written rest length
      obtain ⟨last, lastLength, run⟩ :=
        Printing.writes_countM steps 0 size (written ++ "[") rest length
      refine ⟨last, lastLength, ?_⟩
      rw [writeAxis, textFrom, List.range_eq_range']
      change (countM _ 0 size (⟨written ++ "[", fixed ++ rest⟩ : Printing) >>= _) = _
      rw [run]
      cases (List.range' 0 size).mapM fun position => source.textFrom (fixed ++ [position]) sizes with
      | error fault => rfl
      | ok texts =>
          change Except.ok _ = Except.ok _
          simp [Printing.write, Text.separated_eq, Text.bracketed, String.append_assoc]

/-- A tensor of low rank is printed as the text of all its elements. -/
theorem text_eq {source : Source T} (low : source.shape.rank ≤ 3) :
    source.text = source.textFrom [] source.shape.sizes := by
  obtain ⟨last, _, run⟩ := source.writes_axis [] source.shape.sizes ""
    (source.shape.sizes.map fun _ => 0) (by simp)
  change source.writeAxis 0 _ ⟨"", source.shape.sizes.map fun _ => 0⟩ = _ at run
  rw [text, if_neg (by omega)]
  dsimp only
  rw [run]
  cases source.textFrom [] source.shape.sizes with
  | error fault => rfl
  | ok text =>
      change Except.ok _ = Except.ok _
      simp

/-- The text behind fixed coordinates is written from the elements that begin with them. -/
theorem textFrom_congr {left right : Source T} {leftFixed rightFixed sizes : List Nat}
    (same : ∀ rest, Inside sizes rest →
      left.read (leftFixed ++ rest) = right.read (rightFixed ++ rest)) :
    left.textFrom leftFixed sizes = right.textFrom rightFixed sizes := by
  induction sizes generalizing leftFixed rightFixed with
  | nil =>
      have only := same [] .nil
      rw [List.append_nil, List.append_nil] at only
      rw [textFrom, textFrom, only]
  | cons size sizes ih =>
      rw [textFrom, textFrom]
      refine congrArg (Text.bracketed <$> ·) (mapM_congr fun position listed => ih fun rest inside => ?_)
      rw [List.append_assoc, List.append_assoc]
      exact same (position :: rest) (.cons (List.mem_range.mp listed) inside)

end Source

end ShapedTensor
