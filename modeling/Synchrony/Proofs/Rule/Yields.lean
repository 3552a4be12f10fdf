import Synchrony.Proofs.Rule.Layout

/-!
# Forms in front of another text

A form that is complete in front of one text may be complete in front of another. It looks at no
more than the next character and at what stands behind the next blanks, so it is if the two texts
begin alike and neither a comma nor an arrow comes up. A text **yields** to another if whatever is
complete in front of the one is complete in front of the other (`Yields`).

The lemmas of this module carry that from positions to call lines, clauses and rules.
-/

set_option autoImplicit false

namespace Synchrony.Source

variable {rest rest' : List Char}

/-! ## Yielding -/

/-- A text that ends every position and does not go on with another. -/
structure Quiet (rest : List Char) : Prop where
  fits : ∀ atom : Atom, atom.Fits rest
  no_comma : Stops (· = ',') (Text.skipBlanks rest)

/-- What is complete in front of the first text is complete in front of the second. -/
structure Yields (rest rest' : List Char) : Prop where
  fits : ∀ atom : Atom, atom.Fits rest → atom.Fits rest'
  no_comma : Stops (· = ',') (Text.skipBlanks rest')
  no_arrow : Arrow.FitsOf rest' none

theorem Calm.quiet (h : Calm rest) : Quiet rest :=
  ⟨h.fits, h.no_comma⟩

theorem quiet_close (s : List Char) : Quiet (')' :: s) where
  fits atom := atom.fits_of_head rfl rfl
  no_comma := by
    rw [skipBlanks_of_stops stops_close]
    exact (stops_cons _ _ _).mpr rfl

namespace Atom

theorem fits_congr (atom : Atom) (h : atom.Fits rest) (hhead : rest'.head? = rest.head?) :
    atom.Fits rest' := by
  cases atom with
  | word w =>
    intro c hc
    exact h c (hhead ▸ hc)
  | literal l =>
    intro c hc
    exact h c (hhead ▸ hc)

theorem fits_nil (atom : Atom) : atom.Fits [] := by
  cases atom with
  | word w => exact stops_nil _
  | literal l => exact stops_nil _

theorem fits_append (atom : Atom) (front : List Char) (hfits : atom.Fits rest → atom.Fits rest')
    (h : atom.Fits (front ++ rest)) : atom.Fits (front ++ rest') := by
  cases front with
  | nil => exact hfits h
  | cons c front => exact atom.fits_congr h rfl

end Atom

namespace Entry

theorem text_ne_nil (entry : Entry) : entry.text ≠ [] :=
  List.append_ne_nil_of_right_ne_nil _ (List.cons_ne_nil _ _)

/-- Behind the blanks that a call line starts with there is a letter. -/
theorem letter_behind (entry : Entry) (rest : List Char) :
    ∀ c ∈ (Text.skipBlanks (entry.text ++ rest)).head?, isLetter c = true := by
  rw [entry.skipBlanks_text]
  intro c hc
  cases hc
  exact entry.call.name.letter

end Entry

namespace Yields

theorem nil (rest : List Char) : Yields rest [] where
  fits atom _ := atom.fits_nil
  no_comma := stops_nil _
  no_arrow := by
    rintro ⟨_, h⟩
    cases h

/-- A text yields to another that begins alike, or with a line break where it begins. -/
theorem of_append {front : List Char} (h : front = [] → rest'.head? = some '\n')
    (hletter : ∀ c ∈ (Text.skipBlanks (front ++ rest')).head?, isLetter c = true) :
    Yields (front ++ rest) (front ++ rest') where
  fits atom hfits := by
    cases front with
    | nil =>
      have hbreak : rest'.head? = ['\n'].head? := h rfl
      exact atom.fits_congr (atom.fits_of_head rfl rfl) hbreak
    | cons c front => exact atom.fits_congr hfits rfl
  no_comma := no_comma_of_letter hletter
  no_arrow := no_arrow_of_letter hletter

theorem blanks (h : Yields rest rest') (blanks : Blanks) :
    Yields (blanks.chars ++ rest) (blanks.chars ++ rest') where
  fits atom := atom.fits_append _ (h.fits atom)
  no_comma := by
    rw [skipBlanks_append]
    exact h.no_comma
  no_arrow := by
    rw [Arrow.FitsOf, skipBlanks_append]
    exact h.no_arrow

theorem entries (h : Yields rest rest') (entries : List Entry) :
    Yields (entries.flatMap Entry.text ++ rest) (entries.flatMap Entry.text ++ rest') := by
  cases entries with
  | nil => exact h
  | cons entry more =>
    rw [List.flatMap_cons, List.append_assoc, List.append_assoc]
    refine of_append (fun hnil => absurd hnil entry.text_ne_nil) (entry.letter_behind _)

end Yields

theorem Further.FitAll.yields {more : List Further} (h : FitAll more rest)
    (hfits : ∀ atom : Atom, atom.Fits rest → atom.Fits rest')
    (hcomma : Stops (· = ',') (Text.skipBlanks rest')) : FitAll more rest' := by
  induction more with
  | nil => exact hcomma
  | cons further more ih => exact ⟨further.atom.fits_append _ (hfits _) h.1, ih h.2⟩

theorem Items.Fits.yields {items : Items} (h : items.Fits rest)
    (hfits : ∀ atom : Atom, atom.Fits rest → atom.Fits rest')
    (hcomma : Stops (· = ',') (Text.skipBlanks rest')) : items.Fits rest' :=
  ⟨items.first.fits_append _ (hfits _) h.1, h.2.yields hfits hcomma⟩

/-- What stands behind the closing parenthesis does not matter. -/
theorem Items.Fits.close {items : Items} {close : Blanks}
    (h : items.Fits (close.chars ++ ')' :: rest)) : items.Fits (close.chars ++ ')' :: rest') := by
  refine h.yields ?_ ?_
  · exact fun atom => atom.fits_append _ fun h => atom.fits_congr h rfl
  · rw [skipBlanks_close]
    exact (stops_cons _ _ _).mpr rfl

theorem CallForm.Fits.yields {form : CallForm} (h : form.Fits rest) (hrest : Yields rest rest') :
    form.Fits rest' where
  args := by
    intro items hitems
    exact (h.args items hitems).close
  returns := by
    have hreturns := h.returns
    cases hform : form.returns with
    | none => exact hrest.no_arrow
    | some arrow =>
      rw [hform] at hreturns
      exact Items.Fits.yields hreturns hrest.fits hrest.no_comma

theorem Entry.FitAll.yields {entries : List Entry} (h : FitAll entries rest)
    (hrest : Yields rest rest') : FitAll entries rest' := by
  induction entries with
  | nil => exact trivial
  | cons entry more ih => exact ⟨h.1.yields (hrest.entries more), ih h.2⟩

theorem ClauseForm.Fits.yields {form : ClauseForm} (h : form.Fits rest)
    (hrest : Yields rest rest') : form.Fits rest' :=
  Entry.FitAll.yields h (hrest.blanks form.close)

end Synchrony.Source
