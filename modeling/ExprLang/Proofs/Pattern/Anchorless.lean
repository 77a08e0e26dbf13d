import ExprLang.Pattern.Match

-- Patterns that never ask for the start of the text match alike wherever the same
-- characters are left, whatever comes before these.

namespace ExprLang

-- The same is left, and as much has been taken.
def Cursor.Alike (cursor cursor' : Cursor) : Prop :=
  cursor.taken = cursor'.taken ∧ cursor.rest = cursor'.rest

theorem Cursor.ofPosition_alike_drop (source : List Char) (start position : Nat) :
    (ofPosition source (start + position)).Alike (ofPosition (source.drop start) position) :=
  ⟨rfl, List.drop_drop.symm⟩

namespace Pattern

variable {pattern : Pattern} {next next' : Continuation} {cursor cursor' : Cursor}

def Continuation.Agree (next next' : Continuation) : Prop :=
  ∀ cursor cursor', cursor.Alike cursor' → next cursor = next' cursor'

-- A round that takes nothing takes nothing at the other cursor either.
theorem rounds_eq_of_alike {body : Continuation → Continuation}
    (hbody : ∀ next next', Continuation.Agree next next' →
      Continuation.Agree (body next) (body next'))
    (hnext : Continuation.Agree next next') (bound : Nat) :
    Continuation.Agree (rounds body next bound) (rounds body next' bound) := by
  induction bound with
  | zero => exact hnext
  | succ bound ih =>
    intro cursor cursor' halike
    rw [rounds, rounds, hnext cursor cursor' halike]
    congr 1
    refine hbody _ _ (fun after after' hafter => ?_) cursor cursor' halike
    rw [hafter.1, halike.1, hnext after after' hafter, ih after after' hafter]

theorem times_eq_of_alike {body : Continuation → Continuation}
    (hbody : ∀ next next', Continuation.Agree next next' →
      Continuation.Agree (body next) (body next'))
    (hnext : Continuation.Agree next next') (count : Nat) :
    Continuation.Agree (times body next count) (times body next' count) := by
  induction count with
  | zero => exact hnext
  | succ count ih => exact hbody _ _ ih

-- The induction is on the pattern. Where it asks for the end of the text, it looks
-- at what is left only.
theorem run_agree (h : pattern.mentionsStart = false) (hnext : Continuation.Agree next next') :
    Continuation.Agree (pattern.run next) (pattern.run next') := by
  induction pattern generalizing next next' with
  | empty => exact hnext
  | oneOf set =>
    intro cursor cursor' halike
    rw [run, run, halike.2]
    cases cursor'.rest with
    | nil => rfl
    | cons c rest =>
      have hmore : Cursor.Alike ⟨false, cursor.taken + 1, rest⟩ ⟨false, cursor'.taken + 1, rest⟩ :=
        ⟨congrArg (· + 1) halike.1, rfl⟩
      simp only [hnext _ _ hmore]
  | textStart => cases h
  | textEnd =>
    intro cursor cursor' halike
    rw [run, run, halike.2, hnext cursor cursor' halike]
  | sequence first second ihfirst ihsecond =>
    obtain ⟨hfirst, hsecond⟩ := Bool.or_eq_false_iff.mp h
    exact ihfirst hfirst (ihsecond hsecond hnext)
  | either first second ihfirst ihsecond =>
    obtain ⟨hfirst, hsecond⟩ := Bool.or_eq_false_iff.mp h
    intro cursor cursor' halike
    rw [run, run, ihfirst hfirst hnext cursor cursor' halike,
      ihsecond hsecond hnext cursor cursor' halike]
  | repeated least most? body ih =>
    -- the bound of the rounds is the same, since as much is left where they begin
    refine times_eq_of_alike (fun _ _ => ih h) (fun after after' hafter => ?_) least
    rw [hafter.2]
    exact rounds_eq_of_alike (fun _ _ => ih h) hnext _ after after' hafter

theorem matchText?_eq_of_alike (h : pattern.mentionsStart = false) (halike : cursor.Alike cursor') :
    pattern.matchText? cursor = pattern.matchText? cursor' := by
  rw [matchText?, matchText?, matchLength?, matchLength?, halike.1, halike.2]
  congr 1
  exact run_agree h (fun after after' hafter => by rw [hafter.1]) cursor cursor' halike

-- Matching at a position is matching the rest of the text from its start.
theorem matchText?_drop (h : pattern.mentionsStart = false) (source : List Char) (start : Nat) :
    pattern.matchText? (Cursor.ofPosition source start) =
      pattern.matchText? (Cursor.ofPosition (source.drop start) 0) :=
  matchText?_eq_of_alike h (Cursor.ofPosition_alike_drop source start 0)

end Pattern

end ExprLang
