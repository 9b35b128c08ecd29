import RuleLint.Proofs.Check.Openings

/-!
# Texts in parts

What a recogniser answers may rest on what it reads alone, whatever comes after it (`Local`). Then a
text can be searched in parts, as long as no find goes over the end of a part: a search of a text
finds in its first part what it finds there alone (`findAllFrom_append`).

With something between the first part and the last that no find touches (`LeavesOut`), the finds of
the whole are those of the first part and those of the last, whatever stands between them
(`LeavesOut.findAll_eq`). The condition is one on the finds of the search: places in the text where
the recogniser would answer, but to which no search comes, do not matter.
-/

namespace RuleLint

open Cursor

/-! ### The first part of a text -/

theorem Cursor.Reads.exists_cut {before after rest cs : List Char} {d : Cursor}
    (h : Reads ⟨before, after ++ rest⟩ cs d) (hle : rest.length ≤ d.after.length) :
    ∃ e, d = (atStart []).within rest e ∧ Reads ⟨before, after⟩ cs e := by
  rcases List.append_eq_append_iff.1 h.after_eq with ⟨as, rfl, hrest⟩ | ⟨bs, rfl, hafter⟩
  · obtain rfl : as = [] := by
      have hlength := congrArg List.length hrest
      rw [List.length_append] at hlength
      exact List.length_eq_zero_iff.1 (by omega)
    refine ⟨⟨d.before, []⟩, ?_, h.before_eq, by simp⟩
    rw [Check.within_atStart, List.nil_append]
    exact congrArg (Cursor.mk d.before) hrest.symm
  · refine ⟨⟨d.before, bs⟩, ?_, h.before_eq, rfl⟩
    rw [Check.within_atStart, ← hafter]

section Searches

variable {α : Type} {recognise : Recogniser α} {image : List Char → α → α}
  {above between below : List Char}

/-- A recogniser whose answer rests on what it reads alone: with other characters after it it is the
same, apart from its place. -/
structure Local (recognise : Recogniser α) (image : List Char → α → α) : Prop where
  advances : Advances recognise
  within : ∀ c rest value stop, recognise c = some (value, stop) →
    recognise ((atStart []).within rest c) = some (image rest value, (atStart []).within rest stop)
  cut : ∀ before after rest value stop, recognise ⟨before, after ++ rest⟩ = some (value, stop) →
    rest.length ≤ stop.after.length → (recognise ⟨before, after⟩).isSome = true

/-- A search of a text whose finds do not go over the end of its first part. -/
theorem Local.findAllFrom_append (hlocal : Local recognise image) (before after rest : List Char)
    (hapart : ∀ found ∈ findAllFrom recognise before (after ++ rest),
      rest.length ≤ found.stop.after.length ∨ found.start.after.length ≤ rest.length) :
    findAllFrom recognise before (after ++ rest) =
      (findAllFrom recognise before after).map (Found.within (atStart []) rest (image rest)) ++
        findAllFrom recognise (after.reverse ++ before) rest := by
  fun_induction findAllFrom recognise before after with
  | case1 before => rfl
  | case2 before x after hnone ih =>
    rw [List.cons_append] at hapart ⊢
    -- What is found here in the longer text ends in the first part, which then has it as well.
    have hanswer : recognise ⟨before, x :: (after ++ rest)⟩ = none := by
      rw [Option.eq_none_iff_forall_ne_some]
      rintro ⟨value, stop⟩ hanswer
      rw [findAllFrom_of_some hlocal.advances hanswer] at hapart
      rcases hapart _ List.mem_cons_self with hends | hbegins
      · have hsome := hlocal.cut before (x :: after) rest value stop hanswer hends
        rw [hnone] at hsome
        cases hsome
      · simp only [List.length_cons, List.length_append] at hbegins
        omega
    rw [findAllFrom_of_none hanswer] at hapart ⊢
    rw [ih hapart, List.reverse_cons, List.append_assoc _ [x]]
    rfl
  | case3 before x after value stop hsome hle ih =>
    have hanswer := hlocal.within _ rest _ _ hsome
    rw [Check.within_atStart, List.cons_append] at hanswer
    rw [List.cons_append, findAllFrom_of_some hlocal.advances hanswer] at hapart ⊢
    rw [Check.within_atStart rest stop] at hapart ⊢
    have hrest := ih fun found hfound ↦ hapart found (List.mem_cons_of_mem _ hfound)
    obtain ⟨cs, -, hreads⟩ := hlocal.advances _ _ _ hsome
    have htext : stop.before.reverse ++ stop.after = before.reverse ++ (x :: after) :=
      hreads.text_eq
    have hback : stop.after.reverse ++ stop.before = (x :: after).reverse ++ before := by
      simpa using congrArg List.reverse htext
    rw [hrest, hback, List.map_cons, List.cons_append, Found.within, Check.within_atStart,
      Check.within_atStart]
    rfl
  | case4 before x after value stop hsome hlt ih =>
    exact absurd (hlocal.advances.length_le hsome) hlt

/-- A search passes over a part in which no find begins. -/
theorem findAllFrom_pass_of_finds (hadvances : Advances recognise) (before part after : List Char)
    (h : ∀ found ∈ findAllFrom recognise before (part ++ after),
      found.start.after.length ≤ after.length) :
    findAllFrom recognise before (part ++ after) =
      findAllFrom recognise (part.reverse ++ before) after := by
  induction part generalizing before with
  | nil => rfl
  | cons x part ih =>
    rw [List.cons_append] at h ⊢
    have hanswer : recognise ⟨before, x :: (part ++ after)⟩ = none := by
      rw [Option.eq_none_iff_forall_ne_some]
      rintro ⟨value, stop⟩ hanswer
      rw [findAllFrom_of_some hadvances hanswer] at h
      have hlength := h _ List.mem_cons_self
      simp only [List.length_cons, List.length_append] at hlength
      omega
    rw [findAllFrom_of_none hanswer] at h ⊢
    rw [ih _ h, List.reverse_cons, List.append_assoc]
    rfl

/-! ### Something in the middle -/

/-- Whether every find of a text ends before something in its middle or begins behind it. -/
def LeavesOut (recognise : Recogniser α) (above between below : List Char) : Prop :=
  ∀ found ∈ findAll recognise (above ++ (between ++ below)),
    (between ++ below).length ≤ found.stop.after.length ∨
      found.start.after.length ≤ below.length

/-- A find begins at a place from which the search goes on, and ends further on. -/
theorem length_after_of_mem (hadvances : Advances recognise) {before after : List Char}
    {found : Found α} (h : found ∈ findAllFrom recognise before after) :
    found.start.after.length ≤ after.length ∧
      found.stop.after.length < found.start.after.length := by
  obtain ⟨cs, hcs⟩ := exists_reads_of_mem_findAllFrom hadvances _ _ h
  obtain ⟨-, hanswer⟩ := of_mem_findAllFrom _ (fun c value d hanswer ↦ by
    obtain ⟨ds, -, hds⟩ := hadvances c value d hanswer
    exact hds.text_eq) before after rfl h
  obtain ⟨ds, hne, hds⟩ := hadvances _ _ _ hanswer
  have hlength : after.length = cs.length + found.start.after.length := hcs.length_eq
  exact ⟨by omega, hds.length_lt_iff.2 hne⟩

/-- **The finds of a text with something in the middle that they leave out** are those of the part
above it and those of the part below. -/
theorem LeavesOut.findAll_eq (h : LeavesOut recognise above between below)
    (hlocal : Local recognise image) {image' : α → α}
    (hcarries : Carries ⟨(above ++ between).reverse, []⟩ []
      (Prod.map image' (within ⟨(above ++ between).reverse, []⟩ [])) recognise) :
    findAll recognise (above ++ (between ++ below)) =
      (findAll recognise above).map
          (Found.within (atStart []) (between ++ below) (image (between ++ below))) ++
        (findAll recognise below).map
          (Found.within ⟨(above ++ between).reverse, []⟩ [] image') := by
  have hfirst := hlocal.findAllFrom_append [] above (between ++ below) fun found hfound ↦
    (h found hfound).imp_right fun hle ↦ hle.trans (by simp)
  rw [List.append_nil] at hfirst
  -- a find from the end of the first part on does not end there
  have hpass := findAllFrom_pass_of_finds hlocal.advances above.reverse between below
    fun found hfound ↦ by
      obtain ⟨hbegins, hends⟩ := length_after_of_mem hlocal.advances hfound
      have hmem : found ∈ findAll recognise (above ++ (between ++ below)) := by
        rw [findAll, hfirst]
        exact List.mem_append_right _ hfound
      exact (h found hmem).resolve_left (by omega)
  have hbelow := findAllFrom_eq_map hlocal.advances hcarries below
  rw [findAll, hfirst, hpass, ← List.reverse_append]
  exact congrArg (_ ++ ·) hbelow

end Searches

end RuleLint
