import ResultSchema.Json.Text

/-! # Excerpts

A clipped text is the text itself if it fits, and else its longest front that fits, followed by
dots. Fronts are counted in bytes and end between characters.
-/

namespace ResultSchema.Json

/-- What a text is clipped to; every front of the text that fits is a front of the one kept. -/
inductive Clipped (bytes : Nat) (text : String) : String → Prop
  | whole : text.utf8ByteSize ≤ bytes → Clipped bytes text text
  | front {front : String} : bytes < text.utf8ByteSize →
      front.toList <+: text.toList → front.utf8ByteSize ≤ bytes →
      (∀ other : String, other.toList <+: text.toList → other.utf8ByteSize ≤ bytes →
        other.toList <+: front.toList) →
      Clipped bytes text (front ++ "...")

variable {bytes : Nat} {c : Char} {l front : List Char}

theorem utf8ByteSize_ofList_cons :
    (String.ofList (c :: l)).utf8ByteSize = c.utf8Size + (String.ofList l).utf8ByteSize := by
  rw [String.ofList_cons, String.utf8ByteSize_append, String.utf8ByteSize_singleton]

theorem takeBytes_prefix (bytes : Nat) (l : List Char) : takeBytes bytes l <+: l := by
  induction l generalizing bytes with
  | nil => exact List.prefix_rfl
  | cons c l ih =>
    rw [takeBytes]
    split
    · exact List.cons_prefix_cons.mpr ⟨rfl, ih _⟩
    · exact List.nil_prefix

theorem utf8ByteSize_takeBytes_le (bytes : Nat) (l : List Char) :
    (String.ofList (takeBytes bytes l)).utf8ByteSize ≤ bytes := by
  induction l generalizing bytes with
  | nil => exact Nat.zero_le bytes
  | cons c l ih =>
    rw [takeBytes]
    split
    · have hrest := ih (bytes - c.utf8Size)
      rw [utf8ByteSize_ofList_cons]
      omega
    · exact Nat.zero_le bytes

theorem prefix_takeBytes (h : front <+: l) (hfits : (String.ofList front).utf8ByteSize ≤ bytes) :
    front <+: takeBytes bytes l := by
  induction l generalizing front bytes with
  | nil => exact h
  | cons c l ih =>
    cases front with
    | nil => exact List.nil_prefix
    | cons d front =>
      obtain ⟨rfl, hrest⟩ := List.cons_prefix_cons.mp h
      rw [utf8ByteSize_ofList_cons] at hfits
      have hd : d.utf8Size ≤ bytes := by omega
      rw [takeBytes, if_pos hd]
      exact List.cons_prefix_cons.mpr ⟨rfl, ih hrest (by omega)⟩

theorem clip_clipped (bytes : Nat) (text : String) : Clipped bytes text (clip bytes text) := by
  unfold clip
  split
  · rename_i hfits
    exact .whole hfits
  · rename_i hlong
    refine .front (Nat.not_le.mp hlong) ?_ (utf8ByteSize_takeBytes_le bytes text.toList) ?_
    · rw [String.toList_ofList]
      exact takeBytes_prefix bytes text.toList
    · intro other hother hfits
      rw [String.toList_ofList]
      refine prefix_takeBytes hother ?_
      rwa [String.ofList_toList]

/-- The second character takes two bytes, of which only one is left. -/
example : clip 2 "aöb" = "a..." := by decide

end ResultSchema.Json
