import ResultSchema.Catalog.Humanizer
import Mathlib.Data.List.Chain

/-! # The words of an identifier

An identifier is taken apart at its separators and at its boundaries, the places where an
upper-case letter follows a lower-case letter or a digit. Its words hold neither, nothing but
separators is left out, and a text of words with single blanks between them falls into these words.
-/

namespace ResultSchema.Humanizer

variable {a b c : Char} {s w text : List Char} {phrase : List (List Char)}

section Boundaries

/-- An upper-case letter after a lower-case letter or digit. -/
def isBoundary (a b : Char) : Bool := (a.isLower || a.isDigit) && b.isUpper

/-- No lower-case letter or digit is followed by an upper-case letter. -/
def Unbroken (s : List Char) : Prop := s.IsChain fun a b => isBoundary a b = false

theorem isBoundary_blank_right (a : Char) : isBoundary a ' ' = false := Bool.and_false _

theorem isBoundary_blank_left (b : Char) : isBoundary ' ' b = false := Bool.false_and _

theorem spaceBoundaries_of_boundary (h : isBoundary a b = true) :
    spaceBoundaries (a :: b :: s) = a :: ' ' :: spaceBoundaries (b :: s) := if_pos h

theorem spaceBoundaries_of_not_boundary (h : isBoundary a b = false) :
    spaceBoundaries (a :: b :: s) = a :: spaceBoundaries (b :: s) :=
  if_neg (Bool.eq_false_iff.mp h)

theorem head?_spaceBoundaries (s : List Char) : (spaceBoundaries s).head? = s.head? := by
  rcases s with _ | ⟨a, _ | ⟨b, s⟩⟩
  · rfl
  · rfl
  · cases h : isBoundary a b
    · rw [spaceBoundaries_of_not_boundary h]; rfl
    · rw [spaceBoundaries_of_boundary h]; rfl

theorem unbroken_spaceBoundaries : ∀ s : List Char, Unbroken (spaceBoundaries s)
  | [] => .nil
  | [a] => .singleton a
  | a :: b :: s => by
    have ih := unbroken_spaceBoundaries (b :: s)
    cases h : isBoundary a b
    · rw [spaceBoundaries_of_not_boundary h]
      refine List.isChain_cons.mpr ⟨?_, ih⟩
      intro y hy
      rw [head?_spaceBoundaries] at hy
      cases hy
      exact h
    · rw [spaceBoundaries_of_boundary h]
      refine List.isChain_cons_cons.mpr ⟨isBoundary_blank_right a, List.isChain_cons.mpr ⟨?_, ih⟩⟩
      exact fun y _ => isBoundary_blank_left y

theorem spaceBoundaries_of_unbroken : ∀ {s : List Char}, Unbroken s → spaceBoundaries s = s
  | [], _ => rfl
  | [_], _ => rfl
  | a :: b :: s, h => by
    obtain ⟨hab, hs⟩ := List.isChain_cons_cons.mp h
    rw [spaceBoundaries_of_not_boundary hab, spaceBoundaries_of_unbroken hs]

/-- What is left of a text without separators. -/
def plainPart (s : List Char) : List Char := s.filter fun c => !isSeparator c

theorem plainPart_cons_of_separator (h : isSeparator c = true) :
    plainPart (c :: s) = plainPart s := List.filter_cons_of_neg (by simp [h])

theorem plainPart_cons_of_plain (h : isSeparator c = false) :
    plainPart (c :: s) = c :: plainPart s := List.filter_cons_of_pos (by simp [h])

theorem plainPart_cons (c : Char) (s : List Char) :
    plainPart (c :: s) = plainPart [c] ++ plainPart s := List.filter_append [c] s

theorem plainPart_spaceBoundaries : ∀ s : List Char, plainPart (spaceBoundaries s) = plainPart s
  | [] => rfl
  | [_] => rfl
  | a :: b :: s => by
    have ih := plainPart_spaceBoundaries (b :: s)
    cases h : isBoundary a b
    · rw [spaceBoundaries_of_not_boundary h, plainPart_cons a, ih, ← plainPart_cons]
    · have hblank : isSeparator ' ' = true := by decide
      rw [spaceBoundaries_of_boundary h, plainPart_cons a, plainPart_cons_of_separator hblank, ih,
        ← plainPart_cons]

end Boundaries

section Words

theorem splitWords_of_separator (h : isSeparator c = true) :
    splitWords (c :: s) = ([], words s) := by
  simp [splitWords, words, h]

theorem splitWords_of_plain (h : isSeparator c = false) :
    splitWords (c :: s) = (c :: (splitWords s).1, (splitWords s).2) := by
  simp [splitWords, h]

theorem words_eq (s : List Char) : words s =
    if (splitWords s).1 = [] then (splitWords s).2 else (splitWords s).1 :: (splitWords s).2 := by
  simp [words]

theorem words_of_separator (h : isSeparator c = true) : words (c :: s) = words s := by
  rw [words_eq, splitWords_of_separator h, if_pos rfl]

theorem mem_words_iff :
    w ∈ words s ↔ w ∈ (splitWords s).2 ∨ w = (splitWords s).1 ∧ w ≠ [] := by
  rw [words_eq]
  split
  · grind
  · grind

theorem words_flatten_eq (s : List Char) :
    (words s).flatten = (splitWords s).1 ++ (splitWords s).2.flatten := by
  rw [words_eq]
  split
  · simp [*]
  · rfl

/-- Nothing but separators is left out. -/
theorem words_flatten (s : List Char) : (words s).flatten = plainPart s := by
  induction s with
  | nil => rfl
  | cons c s ih =>
    cases h : isSeparator c
    · rw [words_flatten_eq] at ih ⊢
      rw [splitWords_of_plain h, plainPart_cons_of_plain h, ← ih]
      rfl
    · rw [words_of_separator h, plainPart_cons_of_separator h, ih]

theorem words_within (s : List Char) : (splitWords s).1 <+: s ∧
    ∀ w ∈ words s, w ≠ [] ∧ w <:+: s := by
  induction s with
  | nil => exact ⟨List.nil_prefix, by rintro w ⟨⟩⟩
  | cons c s ih =>
    obtain ⟨hfirst, hwords⟩ := ih
    cases h : isSeparator c
    · have hlonger : (splitWords (c :: s)).1 <+: c :: s := by
        rw [splitWords_of_plain h]
        exact List.cons_prefix_cons.mpr ⟨rfl, hfirst⟩
      refine ⟨hlonger, fun w hw => ?_⟩
      rcases mem_words_iff.mp hw with hw | ⟨rfl, hne⟩
      · rw [splitWords_of_plain h] at hw
        obtain ⟨hne, hwithin⟩ := hwords w (mem_words_iff.mpr (.inl hw))
        exact ⟨hne, List.infix_cons hwithin⟩
      · exact ⟨hne, hlonger.isInfix⟩
    · rw [words_of_separator h, splitWords_of_separator h]
      exact ⟨List.nil_prefix, fun w hw => (hwords w hw).imp_right List.infix_cons⟩

theorem splitWords_append (h : ∀ c ∈ w, isSeparator c = false) (s : List Char) :
    splitWords (w ++ s) = (w ++ (splitWords s).1, (splitWords s).2) := by
  induction w with
  | nil => rfl
  | cons c w ih =>
    obtain ⟨hc, hw⟩ := List.forall_mem_cons.mp h
    rw [List.cons_append, splitWords_of_plain hc, ih hw]
    rfl

end Words

theorem mem_plainPart_of_mem_words (h : w ∈ words (spaceBoundaries s)) (hc : c ∈ w) :
    c ∈ plainPart s := by
  rw [← plainPart_spaceBoundaries, ← words_flatten]
  exact List.mem_flatten_of_mem h hc

structure Word (w : List Char) : Prop where
  ne_nil : w ≠ []
  ascii : ∀ c ∈ w, c.toNat < 128
  plain : ∀ c ∈ w, isSeparator c = false
  unbroken : Unbroken w

theorem word_of_mem_words (hascii : ∀ c ∈ s, c.toNat < 128) (h : w ∈ words (spaceBoundaries s)) :
    Word w where
  ne_nil := ((words_within _).2 w h).1
  ascii c hc := hascii c (List.mem_of_mem_filter (mem_plainPart_of_mem_words h hc))
  plain c hc := by simpa using (List.mem_filter.mp (mem_plainPart_of_mem_words h hc)).2
  unbroken := List.IsChain.infix (unbroken_spaceBoundaries s) ((words_within _).2 w h).2

section Phrases

def spaced (phrase : List (List Char)) : List Char := [' '].intercalate phrase

theorem spaced_singleton (w : List Char) : spaced [w] = w := List.intercalate_singleton

theorem spaced_cons (w : List Char) (h : phrase ≠ []) :
    spaced (w :: phrase) = w ++ ' ' :: spaced phrase := by
  cases phrase with
  | nil => exact absurd rfl h
  | cons v phrase => simp [spaced, List.intercalate_cons_cons]

theorem spaced_ne_nil (hne : phrase ≠ []) (h : ∀ w ∈ phrase, Word w) : spaced phrase ≠ [] := by
  rcases phrase with _ | ⟨w, _ | ⟨v, phrase⟩⟩
  · exact absurd rfl hne
  · rw [spaced_singleton]
    exact (h w List.mem_cons_self).ne_nil
  · rw [spaced_cons w (List.cons_ne_nil _ _)]
    simp

theorem words_spaced (h : ∀ w ∈ phrase, Word w) : words (spaced phrase) = phrase := by
  induction phrase with
  | nil => rfl
  | cons w phrase ih =>
    obtain ⟨hw, hphrase⟩ := List.forall_mem_cons.mp h
    by_cases hne : phrase = []
    · have hsplit : splitWords w = (w, []) := by
        simpa [splitWords] using splitWords_append hw.plain []
      rw [hne, spaced_singleton, words_eq, hsplit, if_neg hw.ne_nil]
    · have hsplit := splitWords_append hw.plain (' ' :: spaced phrase)
      rw [splitWords_of_separator (by decide), List.append_nil, ih hphrase] at hsplit
      rw [spaced_cons w hne, words_eq, hsplit, if_neg hw.ne_nil]

end Phrases

end ResultSchema.Humanizer
