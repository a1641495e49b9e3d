import Mathlib.Logic.Basic
import Sieve.Sql.Fragment

namespace Sieve.Sql.Piece

variable (d : Dialect)

theorem params_append (pieces more : List Piece) :
    params (pieces ++ more) = params pieces ++ params more := by
  simp [params]

-- Later placeholders are counted on from the parameters before them.
theorem render_append (place : Nat) (pieces more : List Piece) :
    render d place (pieces ++ more) =
      render d place pieces ++ render d (place + (params pieces).length) more := by
  induction pieces generalizing place with
  | nil => simp [render, params]
  | cons piece rest ih =>
      cases piece with
      | text s =>
          have hparams : params (.text s :: rest) = params rest := rfl
          rw [List.cons_append, render, ih, hparams, render, String.append_assoc]
      | bound value =>
          have hparams : params (.bound value :: rest) = value :: params rest := rfl
          have hplace : place + (value :: params rest).length =
              place + 1 + (params rest).length := by
            rw [List.length_cons]
            omega
          rw [List.cons_append, render, ih, hparams, render, String.append_assoc, hplace]

-- Pieces that only differ in how their text is cut.
def Alike (pieces others : List Piece) : Prop :=
  params pieces = params others ∧ ∀ place, render d place pieces = render d place others

variable {d}

namespace Alike

theorem refl (pieces : List Piece) : Alike d pieces pieces :=
  ⟨rfl, fun _ => rfl⟩

theorem append {pieces others more others' : List Piece} (h : Alike d pieces others)
    (h' : Alike d more others') : Alike d (pieces ++ more) (others ++ others') := by
  constructor
  · rw [params_append, params_append, h.1, h'.1]
  · intro place
    rw [render_append, render_append, h.1, h.2, h'.2]

end Alike

end Sieve.Sql.Piece
