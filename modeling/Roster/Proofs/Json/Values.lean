import Roster.Proofs.Json.Scalars

/-!
Values of any shape are passed over exactly as the grammar forms them, to any depth. What the
brackets around a place still demand is a text of its own, and what is passed over inside them is
the rest of a value with such a text behind it.
-/

namespace Roster.Json

open Text (Symbol ofChars)

/-! ## Labels -/

theorem readColon_append {w : List Char} (h : Blank w) (r : List Char) :
    readColon (ofChars (w ++ ':' :: r)) = .ok (ofChars r) := by
  rw [readColon, skipSpace_append h]
  rfl

theorem exists_of_readColon {s : List Char} {rest : List Symbol}
    (h : readColon (ofChars s) = .ok rest) :
    ∃ w r, s = w ++ ':' :: r ∧ rest = ofChars r ∧ Blank w := by
  obtain ⟨w, t, rfl, hw, hskip, -⟩ := exists_of_skipSpace s
  rw [readColon, hskip] at h
  cases t with
  | nil => cases h
  | cons c t =>
    have hstep : (if Symbol.char c = .char ':' then .ok (ofChars t)
        else .error (Stop.past .expectedColon (ofChars (c :: t)))) = Except.ok rest := h
    split at hstep
    · rename_i hc
      cases hc
      cases hstep
      exact ⟨w, t, rfl, rfl, hw⟩
    · cases hstep

theorem enter_append {b : Bracket} {l : List Char} (h : IsLabel b l) (r : List Char) :
    b.enter (ofChars (l ++ r)) = .ok (ofChars r) := by
  cases b with
  | list =>
    obtain rfl : l = [] := h
    rfl
  | object =>
    obtain ⟨w, k, w', rfl, hw, ⟨body, rfl, hbody⟩, hw'⟩ := h
    have hsplit : ofChars (w ++ ('"' :: body ++ ['"']) ++ w' ++ [':'] ++ r) =
        ofChars (w ++ '"' :: (body ++ ['"'] ++ (w' ++ ':' :: r))) := by
      simp
    have htext : skipText (ofChars (body ++ ['"'] ++ (w' ++ ':' :: r))) =
        .ok (ofChars (w' ++ ':' :: r)) := by
      have hread := skipText_append hbody (ofChars (w' ++ ':' :: r))
      simpa [ofChars] using hread
    have hquote : skipSpace (ofChars ('"' :: (body ++ ['"'] ++ (w' ++ ':' :: r)))) =
        .char '"' :: ofChars (body ++ ['"'] ++ (w' ++ ':' :: r)) := skipSpace_char rfl _
    rw [hsplit, Bracket.enter, skipKey, skipSpace_append hw, hquote]
    simp only [if_true, htext]
    exact readColon_append hw' r

theorem exists_of_enter {b : Bracket} {s : List Char} {rest : List Symbol}
    (h : b.enter (ofChars s) = .ok rest) : ∃ l r, s = l ++ r ∧ rest = ofChars r ∧ IsLabel b l := by
  cases b with
  | list =>
    cases h
    exact ⟨[], s, rfl, rfl, rfl⟩
  | object =>
    obtain ⟨w, t, rfl, hw, hskip, -⟩ := exists_of_skipSpace s
    rw [Bracket.enter, skipKey, hskip] at h
    cases t with
    | nil => cases h
    | cons c t =>
      simp only [ofChars, List.map_cons] at h
      split at h
      · rename_i hc
        cases hc
        split at h
        · cases h
        · rename_i htext
          obtain ⟨body, r, rfl, rfl, hbody⟩ := unspelled_of_skipText htext
          obtain ⟨w', r, rfl, rfl, hw'⟩ := exists_of_readColon h
          exact ⟨w ++ ('"' :: body ++ ['"']) ++ w' ++ [':'], r, by simp, rfl, w, _, w', rfl, hw,
            ⟨body, rfl, hbody⟩, hw'⟩
      · cases h

/-- A label and the blanks behind it may be preceded by blanks. -/
theorem IsLabel.blank_append {b : Bracket} {w l w' : List Char} (hw : Blank w) (hl : IsLabel b l)
    (hw' : Blank w') : ∃ l₁ w₁, w ++ l ++ w' = l₁ ++ w₁ ∧ IsLabel b l₁ ∧ Blank w₁ := by
  cases b with
  | list =>
    obtain rfl : l = [] := hl
    exact ⟨[], w ++ w', by simp, rfl, hw.append hw'⟩
  | object =>
    obtain ⟨w₀, k, w₁, rfl, hw₀, hk, hw₁⟩ := hl
    exact ⟨w ++ w₀ ++ k ++ w₁ ++ [':'], w', by simp, ⟨w ++ w₀, k, w₁, rfl, hw.append hw₀, hk, hw₁⟩,
      hw'⟩

/-! ## Values are passed over -/

variable {b : Bracket} {stack outer : List Bracket}

theorem closing_eq (b : Bracket) : b.closing = .char b.closes := by
  cases b <;> rfl

theorem skipFrom_value (stack : List Bracket) (s : List Symbol) :
    skipFrom .value stack s =
      match skipSpace s with
      | [] => .error (Stop.atEnd .endInValue)
      | x :: rest =>
        if x = .char '[' then skipFrom .opened (.list :: stack) rest
        else if x = .char '\x7b' then skipFrom .opened (.object :: stack) rest
        else (skipScalar (x :: rest)).bind (skipFrom .done stack) := by
  rw [skipFrom]
  split
  · rename_i h
    rw [h]
  · rename_i x rest h
    simp only [h]
    cases skipScalar (x :: rest) <;> rfl

theorem skipFrom_opened (b : Bracket) (outer : List Bracket) (s : List Symbol) :
    skipFrom .opened (b :: outer) s =
      match skipSpace s with
      | [] => .error (Stop.atEnd b.cut)
      | x :: rest =>
        if x = b.closing then skipFrom .done outer rest
        else (b.enter (x :: rest)).bind (skipFrom .value (b :: outer)) := by
  rw [skipFrom]
  split
  · rename_i h
    rw [h]
  · rename_i x rest h
    simp only [h]
    cases b.enter (x :: rest) <;> rfl

theorem skipFrom_done (b : Bracket) (outer : List Bracket) (s : List Symbol) :
    skipFrom .done (b :: outer) s =
      match skipSpace s with
      | [] => .error (Stop.atEnd b.cut)
      | x :: rest =>
        if x = .char ',' then (b.enter rest).bind (skipFrom .value (b :: outer))
        else if x = b.closing then skipFrom .done outer rest
        else .error (Stop.past b.unseparated (x :: rest)) := by
  rw [skipFrom]
  split
  · rename_i h
    rw [h]
  · rename_i x rest h
    simp only [h]
    cases b.enter rest <;> rfl

theorem skipFrom_blank {w : List Char} (hw : Blank w) (s : List Char) :
    skipFrom .value stack (ofChars (w ++ s)) = skipFrom .value stack (ofChars s) := by
  rw [skipFrom_value, skipSpace_append hw, ← skipFrom_value]

theorem skipFrom_scalar {v r : List Char} (hv : IsScalar v) (hr : Apart r) :
    skipFrom .value stack (ofChars (v ++ r)) = skipFrom .done stack (ofChars r) := by
  obtain ⟨c, s, rfl, hc, hlist, hobject⟩ := hv.begins
  have hread : skipScalar (.char c :: ofChars (s ++ r)) = .ok (ofChars r) :=
    skipScalar_append hv hr
  rw [skipFrom_value, List.cons_append, skipSpace_char hc.not_isSpace]
  simp only [ofChars, List.map_cons, Symbol.char.injEq, hlist, hobject, if_false] at hread ⊢
  rw [hread]
  rfl

theorem skipFrom_opens (s : List Char) :
    skipFrom .value stack (ofChars (b.opens :: s)) = skipFrom .opened (b :: stack) (ofChars s) := by
  have hskip : skipSpace (ofChars (b.opens :: s)) = .char b.opens :: ofChars s :=
    skipSpace_char (by cases b <;> rfl) s
  rw [skipFrom_value, hskip]
  cases b <;> rfl

theorem skipFrom_closes {state : Skipping} (hstate : state ≠ .value) {w : List Char} (hw : Blank w)
    (s : List Char) :
    skipFrom state (b :: outer) (ofChars (w ++ b.closes :: s)) =
      skipFrom .done outer (ofChars s) := by
  have hskip : skipSpace (ofChars (w ++ b.closes :: s)) = b.closing :: ofChars s := by
    rw [skipSpace_append hw, closing_eq]
    exact skipSpace_char (by cases b <;> rfl) s
  cases state with
  | value => exact absurd rfl hstate
  | opened =>
    rw [skipFrom_opened, hskip]
    exact if_pos rfl
  | done =>
    rw [skipFrom_done, hskip]
    cases b <;> rfl

theorem skipFrom_comma {w l : List Char} (hw : Blank w) (hl : IsLabel b l) (s : List Char) :
    skipFrom .done (b :: outer) (ofChars (w ++ ',' :: (l ++ s))) =
      skipFrom .value (b :: outer) (ofChars s) := by
  have hskip : skipSpace (ofChars (w ++ ',' :: (l ++ s))) = .char ',' :: ofChars (l ++ s) := by
    rw [skipSpace_append hw]
    rfl
  rw [skipFrom_done, hskip]
  simp only [if_true, enter_append hl]
  rfl

theorem skipFrom_label {w l v : List Char} (hl : IsLabel b l) (hw : Blank w) (hv : IsValue v)
    (s : List Char) :
    skipFrom .opened (b :: outer) (ofChars (l ++ (w ++ v ++ s))) =
      skipFrom .value (b :: outer) (ofChars (w ++ v ++ s)) := by
  cases b with
  | list =>
    obtain rfl : l = [] := hl
    obtain ⟨c, t, rfl, hc⟩ := hv.begins
    have hskip : skipSpace (ofChars (w ++ c :: t ++ s)) = ofChars (c :: t ++ s) := by
      rw [List.append_assoc, skipSpace_append hw]
      exact skipSpace_char hc.not_isSpace _
    rw [List.nil_append, skipFrom_opened, hskip, List.append_assoc, skipFrom_blank hw]
    refine if_neg ?_
    intro heq
    exact hc.ne_closes .list (Symbol.char.inj heq)
  | object =>
    obtain ⟨w₀, k, w₁, rfl, hw₀, ⟨body, rfl, hbody⟩, hw₁⟩ := hl
    have hlabel : IsLabel .object ('"' :: body ++ ['"'] ++ w₁ ++ [':']) :=
      ⟨[], _, w₁, rfl, by simp [Blank], ⟨body, rfl, hbody⟩, hw₁⟩
    have hskip :
        skipSpace (ofChars (w₀ ++ ('"' :: body ++ ['"']) ++ w₁ ++ [':'] ++ (w ++ v ++ s))) =
          ofChars ('"' :: body ++ ['"'] ++ w₁ ++ [':'] ++ (w ++ v ++ s)) := by
      rw [List.append_assoc, List.append_assoc, List.append_assoc, skipSpace_append hw₀]
      simp only [List.append_assoc]
      exact skipSpace_char rfl _
    have henter := enter_append hlabel (w ++ v ++ s)
    rw [skipFrom_opened, hskip]
    exact (if_neg (by decide)).trans (congrArg (Except.bind · _) henter)

/-! Apart from numbers, values end by themselves. -/

theorem Blank.apart {w : List Char} (hw : Blank w) {r : List Char} (hr : Apart r) :
    Apart (w ++ r) := by
  cases w with
  | nil => exact hr
  | cons c w =>
    rintro _ ⟨⟩
    obtain rfl | rfl | rfl | rfl := hw c (List.mem_cons_self ..) <;> decide

theorem apart_closes (b : Bracket) (r : List Char) : Apart (b.closes :: r) := by
  rintro _ ⟨⟩
  cases b <;> decide

theorem apart_comma (r : List Char) : Apart (',' :: r) := by
  rintro _ ⟨⟩
  decide

theorem apart_nil : Apart [] := by
  rintro _ ⟨⟩

/-- What is passed over where a value, or the items of a bracket, are to come. -/
def Passed : Part → List Char → Prop
  | .value, v => ∀ (stack : List Bracket) (r : List Char), Apart r →
    skipFrom .value stack (ofChars (v ++ r)) = skipFrom .done stack (ofChars r)
  | .items b, s => ∀ (outer : List Bracket) (r : List Char),
    skipFrom .opened (b :: outer) (ofChars (s ++ b.closes :: r)) =
      skipFrom .done outer (ofChars r) ∧
    ∀ w, Blank w → skipFrom .done (b :: outer) (ofChars (w ++ ',' :: (s ++ b.closes :: r))) =
      skipFrom .done outer (ofChars r)

theorem passed_of_formed {p : Part} {s : List Char} (h : Formed p s) : Passed p s := by
  induction h with
  | null => exact fun _ _ hr => skipFrom_scalar .null hr
  | flag h => exact fun _ _ hr => skipFrom_scalar (.flag h) hr
  | number h => exact fun _ _ hr => skipFrom_scalar (.number h) hr
  | text h => exact fun _ _ hr => skipFrom_scalar (.text h) hr
  | @empty b w hw =>
    intro stack r _
    have happend : b.opens :: w ++ [b.closes] ++ r = b.opens :: (w ++ b.closes :: r) := by simp
    rw [happend, skipFrom_opens, skipFrom_closes (by decide) hw]
  | @filled b s _ ih =>
    intro stack r _
    have happend : b.opens :: s ++ [b.closes] ++ r = b.opens :: (s ++ b.closes :: r) := by simp
    rw [happend, skipFrom_opens, (ih stack r).1]
  | @last b l w v w' hl hw hv hw' ih =>
    intro outer r
    have happend : l ++ w ++ v ++ w' ++ b.closes :: r = l ++ (w ++ v ++ (w' ++ b.closes :: r)) := by
      simp
    have hvalue : skipFrom .value (b :: outer) (ofChars (w ++ v ++ (w' ++ b.closes :: r))) =
        skipFrom .done outer (ofChars r) := by
      rw [List.append_assoc, skipFrom_blank hw, ih _ _ (hw'.apart (apart_closes b r)),
        skipFrom_closes (by decide) hw']
    rw [happend]
    refine ⟨?_, fun w₀ hw₀ => ?_⟩
    · rw [skipFrom_label hl hw hv, hvalue]
    · rw [skipFrom_comma hw₀ hl, hvalue]
  | @more b l w v w' s hl hw hv hw' _ ih ihs =>
    intro outer r
    have happend : l ++ w ++ v ++ w' ++ ',' :: s ++ b.closes :: r =
        l ++ (w ++ v ++ (w' ++ ',' :: (s ++ b.closes :: r))) := by
      simp
    have hvalue :
        skipFrom .value (b :: outer) (ofChars (w ++ v ++ (w' ++ ',' :: (s ++ b.closes :: r)))) =
          skipFrom .done outer (ofChars r) := by
      rw [List.append_assoc, skipFrom_blank hw, ih _ _ (hw'.apart (apart_comma _)),
        (ihs outer r).2 w' hw']
    rw [happend]
    refine ⟨?_, fun w₀ hw₀ => ?_⟩
    · rw [skipFrom_label hl hw hv, hvalue]
    · rw [skipFrom_comma hw₀ hl, hvalue]

theorem skipValue_append {w v r : List Char} (hw : Blank w) (hv : IsValue v) (hr : Apart r) :
    skipValue (ofChars (w ++ v ++ r)) = .ok (ofChars r) := by
  have hpass : Passed .value v := passed_of_formed hv
  rw [skipValue, List.append_assoc, skipFrom_blank hw, hpass [] r hr]
  rw [skipFrom]
  decide

/-! ## What is passed over is a value -/

/-- What closes the brackets that are open, innermost first, with what else may stand in them. -/
def Closing : List Bracket → List Char → Prop
  | [], t => t = []
  | b :: outer, t => ∃ s u, t = s ++ b.closes :: u ∧ Closing outer u ∧
    (Blank s ∨ ∃ w i, s = w ++ ',' :: i ∧ Blank w ∧ Formed (.items b) i)

/-- What is left of a value inside open brackets, and of these brackets. -/
def Left : Skipping → List Bracket → List Char → Prop
  | .value, stack, t => ∃ w v u, t = w ++ v ++ u ∧ Blank w ∧ IsValue v ∧ Closing stack u
  | .opened, b :: outer, t => ∃ v u, b.opens :: t = v ++ u ∧ IsValue v ∧ Closing outer u
  | _, stack, t => Closing stack t

theorem formed_of_left {w l t : List Char} (hw : Blank w) (hl : IsLabel b l)
    (h : Left .value (b :: outer) t) :
    ∃ i u, w ++ l ++ t = i ++ b.closes :: u ∧ Formed (.items b) i ∧ Closing outer u := by
  obtain ⟨w', v, _, rfl, hw', hv, s, u, rfl, hu, hs⟩ := h
  obtain ⟨l₁, w₁, happend, hl₁, hw₁⟩ := hl.blank_append hw hw'
  have hsplit : ∀ x, w ++ l ++ (w' ++ v ++ x) = l₁ ++ w₁ ++ v ++ x := by
    intro x
    rw [← happend]
    simp
  obtain hs | ⟨w₂, i, rfl, hw₂, hi⟩ := hs
  · exact ⟨l₁ ++ w₁ ++ v ++ s, u, by rw [hsplit]; simp, .last hl₁ hw₁ hv hs, hu⟩
  · exact ⟨l₁ ++ w₁ ++ v ++ w₂ ++ ',' :: i, u, by rw [hsplit]; simp,
      .more hl₁ hw₁ hv hw₂ hi, hu⟩

theorem left_of_skipFrom {state : Skipping} {s : List Char} {rest : List Symbol}
    (h : skipFrom state stack (ofChars s) = .ok rest) :
    ∃ t r, s = t ++ r ∧ rest = ofChars r ∧ Left state stack t := by
  generalize hx : ofChars s = x at h
  -- by what the reader does next: what is left behind that is what the open brackets demand
  fun_induction skipFrom state stack x generalizing s with
  | case1 => cases h
  | case2 x stack rest' hskip ih =>
    subst hx
    obtain ⟨w, t, rfl, hw, rfl⟩ := exists_of_skipSpace_cons hskip
    obtain ⟨t, r, rfl, hrest, v, u, hv, hvalue, hu⟩ := ih rfl h
    exact ⟨w ++ '[' :: t, r, by simp, hrest, w, v, u, by rw [List.append_assoc, ← hv]; rfl, hw,
      hvalue, hu⟩
  | case3 x stack rest' hskip _ ih =>
    subst hx
    obtain ⟨w, t, rfl, hw, rfl⟩ := exists_of_skipSpace_cons hskip
    obtain ⟨t, r, rfl, hrest, v, u, hv, hvalue, hu⟩ := ih rfl h
    exact ⟨w ++ '\x7b' :: t, r, by simp, hrest, w, v, u, by rw [List.append_assoc, ← hv]; rfl, hw,
      hvalue, hu⟩
  | case4 => cases h
  | case5 x stack y rest' hskip _ _ rest'' hread ih =>
    subst hx
    obtain ⟨w, t, rfl, hw, ht⟩ := exists_of_skipSpace_eq hskip
    rw [ht] at hread
    obtain ⟨v, t, rfl, rfl, hv⟩ := isScalar_of_skipScalar hread
    obtain ⟨u, r, rfl, hrest, hu⟩ := ih rfl h
    exact ⟨w ++ v ++ u, r, by simp, hrest, w, v, u, rfl, hw, hv.isValue, hu⟩
  | case6 state x hstate =>
    cases h
    cases state with
    | value => exact absurd rfl hstate
    | opened => exact ⟨[], s, rfl, hx.symm, rfl⟩
    | done => exact ⟨[], s, rfl, hx.symm, rfl⟩
  | case7 => cases h
  | case8 x b outer rest' hskip ih =>
    subst hx
    rw [closing_eq] at hskip
    obtain ⟨w, t, rfl, hw, rfl⟩ := exists_of_skipSpace_cons hskip
    obtain ⟨u, r, rfl, hrest, hu⟩ := ih rfl h
    exact ⟨w ++ b.closes :: u, r, by simp, hrest, b.opens :: w ++ [b.closes], u, by simp, .empty hw,
      hu⟩
  | case9 => cases h
  | case10 x b outer y rest' hskip _ rest'' henter ih =>
    subst hx
    obtain ⟨w, t, rfl, hw, ht⟩ := exists_of_skipSpace_eq hskip
    rw [ht] at henter
    obtain ⟨l, t, rfl, rfl, hl⟩ := exists_of_enter henter
    obtain ⟨t, r, rfl, hrest, hleft⟩ := ih rfl h
    obtain ⟨i, u, hi, hitems, hu⟩ := formed_of_left hw hl hleft
    exact ⟨w ++ l ++ t, r, by simp, hrest, b.opens :: i ++ [b.closes], u, by simp [hi],
      .filled hitems, hu⟩
  | case11 => cases h
  | case12 => cases h
  | case13 x b outer rest' rest'' henter hskip ih =>
    subst hx
    obtain ⟨w, t, rfl, hw, rfl⟩ := exists_of_skipSpace_cons hskip
    obtain ⟨l, t, rfl, rfl, hl⟩ := exists_of_enter henter
    obtain ⟨t, r, rfl, hrest, hleft⟩ := ih rfl h
    obtain ⟨i, u, hi, hitems, hu⟩ := formed_of_left (w := []) (by simp [Blank]) hl hleft
    exact ⟨w ++ ',' :: (l ++ t), r, by simp, hrest, w ++ ',' :: i, u, by simp_all, hu,
      .inr ⟨w, i, rfl, hw, hitems⟩⟩
  | case14 x b outer rest' hskip _ ih =>
    subst hx
    rw [closing_eq] at hskip
    obtain ⟨w, t, rfl, hw, rfl⟩ := exists_of_skipSpace_cons hskip
    obtain ⟨u, r, rfl, hrest, hu⟩ := ih rfl h
    exact ⟨w ++ b.closes :: u, r, by simp, hrest, w, u, rfl, hu, .inl hw⟩
  | case15 => cases h

theorem isValue_of_skipValue {s : List Char} {rest : List Symbol}
    (h : skipValue (ofChars s) = .ok rest) :
    ∃ w v r, s = w ++ v ++ r ∧ rest = ofChars r ∧ Blank w ∧ IsValue v := by
  obtain ⟨_, r, rfl, hrest, w, v, u, rfl, hw, hv, hu⟩ := left_of_skipFrom h
  obtain rfl : u = [] := hu
  exact ⟨w, v, r, by simp, hrest, hw, hv⟩

end Roster.Json
