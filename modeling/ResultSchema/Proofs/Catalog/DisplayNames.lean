import ResultSchema.Proofs.Catalog.Words

/-! # Display names

A display name is made of the words of an identifier, each with a capital, and single blanks
between them. A capital adds neither a separator nor a boundary to a word, so the display name
falls into the same words again: it is its own display name.
-/

namespace ResultSchema.Humanizer

variable {b c : Char} {w text : List Char} {phrase : List (List Char)}

section Capitals

@[elab_as_elim]
theorem of_ascii {P : Char → Prop} {c : Char} (hc : c.toNat < 128)
    (h : ∀ n < 128, P (Char.ofNat n)) : P c := by
  rw [← Char.ofNat_toNat c]
  exact h c.toNat hc

/-- Of the runs of upper case, only the first one lies in ASCII. -/
theorem find?_tail_upperRuns {p : Nat × Nat × Nat × Nat → Bool}
    (hp : ∀ run, 128 ≤ run.1 → p run = false) : Text.upperRuns.tail.find? p = none := by
  have hruns : ∀ run ∈ Text.upperRuns.tail, 128 ≤ run.1 := by decide +kernel
  exact List.find?_eq_none.mpr fun run hrun => Bool.eq_false_iff.mp (hp run (hruns run hrun))

theorem lookup_upperExpansions (hc : c.toNat < 128) :
    Text.upperExpansions.lookup c.toNat = none := by
  have hexpansions : ∀ e ∈ Text.upperExpansions, 128 ≤ e.1 := by decide +kernel
  refine List.lookup_eq_none_iff.mpr fun e he => bne_iff_ne.mpr ?_
  have hbeyond := hexpansions e he
  omega

theorem upper_of_ascii (hc : c.toNat < 128) : Text.upper c = [c.toUpper] := by
  have hsplit : Text.upperRuns = (0x61, 0x7a, 1, 0x41) :: Text.upperRuns.tail := rfl
  unfold Text.upper
  rw [lookup_upperExpansions hc, hsplit, List.find?_cons, find?_tail_upperRuns fun run hbeyond => ?_]
  · exact of_ascii hc (by decide +kernel)
  · simp only [Bool.and_eq_false_iff, decide_eq_false_iff_not]
    omega

theorem isAlphanumeric_of_isAlphanum (hc : c.toNat < 128) :
    c.isAlphanum = true → Text.isAlphanumeric c = true := of_ascii hc (by decide +kernel)

theorem toNat_toUpper_lt (hc : c.toNat < 128) : c.toUpper.toNat < 128 :=
  of_ascii hc (by decide +kernel)

theorem toUpper_toUpper (hc : c.toNat < 128) : c.toUpper.toUpper = c.toUpper :=
  of_ascii hc (by decide +kernel)

theorem toLower_toUpper (hc : c.toNat < 128) : c.toUpper.toLower = c.toLower :=
  of_ascii hc (by decide +kernel)

theorem isSeparator_toUpper (hc : c.toNat < 128) : isSeparator c.toUpper = isSeparator c :=
  of_ascii hc (by decide +kernel)

theorem isBoundary_toUpper (hc : c.toNat < 128) (h : isBoundary c b = false) :
    isBoundary c.toUpper b = false := by
  have hlow : (c.toUpper.isLower || c.toUpper.isDigit) = true → (c.isLower || c.isDigit) = true :=
    of_ascii hc (by decide +kernel)
  rw [isBoundary, Bool.and_eq_false_iff] at h ⊢
  rcases h with h | h
  · refine .inl (Bool.eq_false_iff.mpr fun hup => ?_)
    exact Bool.false_ne_true (h.symm.trans (hlow hup))
  · exact .inr h

theorem isId_toUpper_cons (hc : c.toNat < 128) (s : List Char) :
    isId (c.toUpper :: s) = isId (c :: s) := by
  have hi : (c.toUpper == 'i' || c.toUpper == 'I') = (c == 'i' || c == 'I') :=
    of_ascii hc (by decide +kernel)
  rcases s with _ | ⟨d, _ | ⟨e, s⟩⟩
  · rfl
  · exact congrArg (· && (d == 'd' || d == 'D')) hi
  · rfl

theorem map_toLower_of_isId (h : isId w = true) : w.map Char.toLower = ['i', 'd'] := by
  unfold isId at h
  split at h
  · simp only [Bool.and_eq_true, Bool.or_eq_true, beq_iff_eq] at h
    obtain ⟨rfl | rfl, rfl | rfl⟩ := h <;> rfl
  · cases h

theorem Word.capitalize_cases (h : Word w) : isId w = true ∧ capitalize w = ['I', 'D'] ∨
    ∃ c rest, w = c :: rest ∧ isId w = false ∧ capitalize w = c.toUpper :: rest := by
  cases hid : isId w
  · cases w with
    | nil => exact absurd rfl h.ne_nil
    | cons c rest =>
      refine .inr ⟨c, rest, rfl, rfl, ?_⟩
      rw [capitalize, hid, upper_of_ascii (h.ascii c List.mem_cons_self)]
      rfl
  · exact .inl ⟨rfl, if_pos hid⟩

theorem word_ID : Word ['I', 'D'] where
  ne_nil := List.cons_ne_nil _ _
  ascii := by simp
  plain := by simp; decide
  unbroken := List.isChain_pair.mpr rfl

theorem Word.capitalize (h : Word w) : Word (capitalize w) := by
  obtain ⟨-, hcap⟩ | ⟨c, rest, rfl, -, hcap⟩ := h.capitalize_cases
  · rw [hcap]
    exact word_ID
  · rw [hcap]
    obtain ⟨hc, hascii⟩ := List.forall_mem_cons.mp h.ascii
    obtain ⟨hsep, hplain⟩ := List.forall_mem_cons.mp h.plain
    obtain ⟨hfirst, hrest⟩ := List.isChain_cons.mp h.unbroken
    exact {
      ne_nil := List.cons_ne_nil _ _
      ascii := List.forall_mem_cons.mpr ⟨toNat_toUpper_lt hc, hascii⟩
      plain := List.forall_mem_cons.mpr ⟨(isSeparator_toUpper hc).trans hsep, hplain⟩
      unbroken := List.isChain_cons.mpr ⟨fun y hy => isBoundary_toUpper hc (hfirst y hy), hrest⟩ }

theorem Word.capitalize_capitalize (h : Word w) :
    Humanizer.capitalize (Humanizer.capitalize w) = Humanizer.capitalize w := by
  obtain ⟨-, hcap⟩ | ⟨c, rest, rfl, hid, hcap⟩ := h.capitalize_cases
  · rw [hcap]
    rfl
  · have hc := h.ascii c List.mem_cons_self
    have hagain : isId (c.toUpper :: rest) = false := (isId_toUpper_cons hc rest).trans hid
    rw [hcap, Humanizer.capitalize, hagain, upper_of_ascii (toNat_toUpper_lt hc), toUpper_toUpper hc]
    rfl

theorem Word.map_toLower_capitalize (h : Word w) :
    (Humanizer.capitalize w).map Char.toLower = w.map Char.toLower := by
  obtain ⟨hid, hcap⟩ | ⟨c, rest, rfl, -, hcap⟩ := h.capitalize_cases
  · rw [hcap, map_toLower_of_isId hid]
    rfl
  · rw [hcap, List.map_cons, toLower_toUpper (h.ascii c List.mem_cons_self), List.map_cons]

end Capitals

section Phrases

/-- Words with single blanks between them, none of which holds a separator or a boundary. -/
structure Tidy (text : List Char) : Prop where
  underscore : '_' ∉ text
  hyphen : '-' ∉ text
  blank : ∀ c ∈ text, Text.isBlank c = true → c = ' '
  leading : text.head? ≠ some ' '
  trailing : text.getLast? ≠ some ' '
  single : text.IsChain fun a b => a = ' ' → b ≠ ' '
  unbroken : Unbroken text

theorem Word.blank_not_mem (h : Word w) : ' ' ∉ w :=
  fun hmem => absurd (h.plain ' ' hmem) (by decide)

theorem Word.tidy (h : Word w) : Tidy w where
  underscore hmem := absurd (h.plain '_' hmem) (by decide)
  hyphen hmem := absurd (h.plain '-' hmem) (by decide)
  blank c hc hblank := by
    have hplain := h.plain c hc
    simp [isSeparator, hblank] at hplain
  leading hhead := h.blank_not_mem (List.mem_of_head? hhead)
  trailing hlast := h.blank_not_mem (List.mem_of_getLast? hlast)
  single := by
    refine (List.pairwise_of_forall_mem_list fun a ha b _ hblank => ?_).isChain
    exact absurd (hblank ▸ ha) h.blank_not_mem
  unbroken := h.unbroken

theorem isChain_append_blank {R : Char → Char → Prop} (hw : w.IsChain R) (h : text.IsChain R)
    (hlast : ∀ c ∈ w.getLast?, R c ' ') (hhead : ∀ c ∈ text.head?, R ' ' c) :
    (w ++ ' ' :: text).IsChain R := by
  refine List.isChain_append.mpr ⟨hw, List.isChain_cons.mpr ⟨hhead, h⟩, ?_⟩
  rintro c hc _ ⟨⟩
  exact hlast c hc

theorem Tidy.cons (hw : Word w) (hne : text ≠ []) (h : Tidy text) : Tidy (w ++ ' ' :: text) where
  underscore := by simp [hw.tidy.underscore, h.underscore]
  hyphen := by simp [hw.tidy.hyphen, h.hyphen]
  blank c hc hblank := by
    rcases List.mem_append.mp hc with hc | hc
    · exact hw.tidy.blank c hc hblank
    · rcases List.mem_cons.mp hc with rfl | hc
      · rfl
      · exact h.blank c hc hblank
  leading := by
    rw [List.head?_append_of_ne_nil _ hw.ne_nil]
    exact hw.tidy.leading
  trailing := by
    rw [List.getLast?_append_of_ne_nil _ (List.cons_ne_nil _ _), List.getLast?_cons_of_ne_nil hne]
    exact h.trailing
  single := by
    refine isChain_append_blank hw.tidy.single h.single ?_ ?_
    · rintro c hc rfl
      exact absurd hc hw.tidy.trailing
    · rintro c hc - rfl
      exact h.leading hc
  unbroken := isChain_append_blank hw.unbroken h.unbroken (fun c _ => isBoundary_blank_right c)
    fun c _ => isBoundary_blank_left c

theorem tidy_spaced (h : ∀ w ∈ phrase, Word w) : Tidy (spaced phrase) := by
  induction phrase with
  | nil => constructor <;> simp [spaced, Unbroken]
  | cons w phrase ih =>
    obtain ⟨hw, hphrase⟩ := List.forall_mem_cons.mp h
    by_cases hne : phrase = []
    · rw [hne, spaced_singleton]
      exact hw.tidy
    · rw [spaced_cons w hne]
      exact Tidy.cons hw (spaced_ne_nil hne hphrase) (ih hphrase)

theorem map_toLower_capitals (h : ∀ w ∈ phrase, Word w) :
    (phrase.map capitalize).flatten.map Char.toLower = phrase.flatten.map Char.toLower := by
  rw [List.map_flatten, List.map_flatten, List.map_map]
  exact congrArg List.flatten (List.map_congr_left fun w hw => (h w hw).map_toLower_capitalize)

theorem plainPart_spaced (h : ∀ w ∈ phrase, Word w) :
    plainPart (spaced phrase) = phrase.flatten := by
  rw [← words_flatten, words_spaced h]

end Phrases

def bare (text : String) : String := String.ofList ((plainPart text.toList).map Char.toLower)

theorem standard_of_alphanumeric {raw : String}
    (h : raw.toList.any Text.isAlphanumeric = true) : standard raw =
      String.ofList (spaced ((words (spaceBoundaries raw.toList)).map capitalize)) := if_pos h

/-- A text of words that have their capitals is its own display name. -/
theorem standard_spaced (h : ∀ w ∈ phrase, Word w ∧ capitalize w = w) :
    standard (String.ofList (spaced phrase)) = String.ofList (spaced phrase) := by
  have hwords : ∀ w ∈ phrase, Word w := fun w hw => (h w hw).1
  have hcapitals : phrase.map capitalize = phrase :=
    (List.map_congr_left fun w hw => (h w hw).2).trans (List.map_id phrase)
  by_cases hany : (String.ofList (spaced phrase)).toList.any Text.isAlphanumeric = true
  · rw [standard_of_alphanumeric hany, String.toList_ofList,
      spaceBoundaries_of_unbroken (tidy_spaced hwords).unbroken, words_spaced hwords, hcapitals]
  · exact if_neg hany

/-- The display name of an ASCII identifier with a letter or digit is tidy and its own display
name, and it differs from the identifier in separators and in the case of letters only. An
identifier without any letter or digit is shown as it is. -/
theorem standard_tidies (raw : String) :
    ((∀ c ∈ raw.toList, c.toNat < 128) → (∃ c ∈ raw.toList, c.isAlphanum = true) →
      standard (standard raw) = standard raw ∧ Tidy (standard raw).toList ∧
        bare (standard raw) = bare raw) ∧
    ((∀ c ∈ raw.toList, Text.isAlphanumeric c = false) → standard raw = raw) := by
  constructor
  · rintro hascii ⟨c, hc, halnum⟩
    have hany : raw.toList.any Text.isAlphanumeric = true :=
      List.any_eq_true.mpr ⟨c, hc, isAlphanumeric_of_isAlphanum (hascii c hc) halnum⟩
    have hwords : ∀ w ∈ words (spaceBoundaries raw.toList), Word w :=
      fun w hw => word_of_mem_words hascii hw
    have hcapitals : ∀ w ∈ (words (spaceBoundaries raw.toList)).map capitalize, Word w :=
      List.forall_mem_map.mpr fun w hw => (hwords w hw).capitalize
    rw [standard_of_alphanumeric hany]
    refine ⟨standard_spaced ?_, ?_, ?_⟩
    · exact List.forall_mem_map.mpr fun w hw =>
        ⟨(hwords w hw).capitalize, (hwords w hw).capitalize_capitalize⟩
    · rw [String.toList_ofList]
      exact tidy_spaced hcapitals
    · unfold bare
      rw [String.toList_ofList, plainPart_spaced hcapitals, map_toLower_capitals hwords,
        words_flatten, plainPart_spaceBoundaries]
  · intro h
    exact if_neg (by simpa using h)

theorem standard_tidies_customerId :
    standard "customerId" = "Customer ID" ∧ standard "Customer ID" = "Customer ID" ∧
      Tidy "Customer ID".toList ∧ bare "Customer ID" = bare "customerId" ∧ standard "--" = "--" := by
  have hshown : standard "customerId" = "Customer ID" := by decide +kernel
  obtain ⟨hagain, htidy, hbare⟩ :=
    (standard_tidies "customerId").1 (by simp) ⟨'c', by simp, rfl⟩
  rw [hshown] at hagain htidy hbare
  exact ⟨hshown, hagain, htidy, hbare, (standard_tidies "--").2 (by simp; decide +kernel)⟩

-- Beyond ASCII a display name may have another one: the capital of the dotless i makes an id of it.
example : standard "ıd" = "Id" ∧ standard "Id" = "ID" := by decide +kernel

end ResultSchema.Humanizer
