import Mathlib.Data.List.Forall2

/-! # Outcomes of computations that may fail

A computation that is put together from others succeeds exactly when they succeed in turn.
-/

namespace ResultSchema

variable {ε α β γ : Type}

@[simp] theorem ok_bind (a : α) (f : α → Except ε β) : (Except.ok a >>= f) = f a := rfl

@[simp] theorem error_bind (e : ε) (f : α → Except ε β) : (Except.error e >>= f) = .error e := rfl

theorem bind_eq_ok_iff {x : Except ε α} {f : α → Except ε β} {b : β} :
    x >>= f = .ok b ↔ ∃ a, x = .ok a ∧ f a = .ok b := by
  cases x with
  | error e => simp [bind, Except.bind]
  | ok a => simp [bind, Except.bind]

theorem map_eq_ok_iff {x : Except ε α} {f : α → β} {b : β} :
    f <$> x = .ok b ↔ ∃ a, x = .ok a ∧ f a = b := by
  cases x with
  | error e => simp [Functor.map, Except.map]
  | ok a => simp [Functor.map, Except.map]

theorem ofExcept_self (x : Except ε α) : (MonadExcept.ofExcept x : Except ε α) = x := by
  cases x <;> rfl

theorem exists_of_toOption_map_eq_some {x : Except ε α} {f : α → β} {b : β}
    (h : x.toOption.map f = some b) : ∃ a, x = .ok a ∧ f a = b := by
  cases x with
  | error e => cases h
  | ok a => exact ⟨a, rfl, Option.some.inj h⟩

theorem cons_eq_ok_iff_forall₂ {R : α → β → Prop} {a : α} {l : List α} {x : Except ε β}
    {xs : Except ε (List β)} {out : List β} (hx : ∀ b, x = .ok b ↔ R a b)
    (hxs : ∀ bs, xs = .ok bs ↔ List.Forall₂ R l bs) :
    (do
      let b ← x
      let bs ← xs
      pure (b :: bs)) = .ok out ↔ List.Forall₂ R (a :: l) out := by
  simp only [bind_eq_ok_iff, hx, hxs, pure, Except.pure, Except.ok.injEq,
    List.forall₂_cons_left_iff]
  constructor
  · rintro ⟨b, hb, rest, hrest, rfl⟩
    exact ⟨b, rest, hb, hrest, rfl⟩
  · rintro ⟨b, rest, hb, hrest, rfl⟩
    exact ⟨b, hb, rest, hrest, rfl⟩

theorem mapM_eq_ok_iff {f : α → Except ε β} {l : List α} {out : List β} :
    l.mapM f = .ok out ↔ List.Forall₂ (fun a b => f a = .ok b) l out := by
  induction l generalizing out with
  | nil => simp [pure, Except.pure, eq_comm]
  | cons a l ih =>
    rw [List.mapM_cons]
    exact cons_eq_ok_iff_forall₂ (fun _ => Iff.rfl) fun _ => ih

theorem exists_mapM_eq_ok_iff {f : α → Except ε β} {l : List α} :
    (∃ out, l.mapM f = .ok out) ↔ ∀ a ∈ l, ∃ b, f a = .ok b := by
  simp only [mapM_eq_ok_iff]
  induction l with
  | nil => simp
  | cons a l ih =>
    rw [List.forall_mem_cons, ← ih]
    constructor
    · rintro ⟨_, h⟩
      cases h with
      | cons hab hrest => exact ⟨⟨_, hab⟩, _, hrest⟩
    · rintro ⟨⟨b, hab⟩, rest, hrest⟩
      exact ⟨b :: rest, .cons hab hrest⟩

/-- What holds of the items beside other items holds of what a step makes of them. -/
theorem forall₂_of_mapM_eq_ok {R : α → β → Prop} {S : α → γ → Prop} {f : β → Except ε γ}
    (hf : ∀ a b c, R a b → f b = .ok c → S a c) {l : List α} {k : List β} {out : List γ}
    (h : List.Forall₂ R l k) (hout : k.mapM f = .ok out) : List.Forall₂ S l out := by
  rw [mapM_eq_ok_iff] at hout
  induction h generalizing out with
  | nil =>
    cases hout
    exact .nil
  | cons hab _ ih =>
    cases hout with
    | cons hbc hout => exact .cons (hf _ _ _ hab hbc) (ih hout)

theorem map_eq_iff_forall₂ {f : α → β} {l : List α} {k : List β} :
    l.map f = k ↔ List.Forall₂ (fun b a => f a = b) k l := by
  rw [← List.forall₂_eq_eq_eq, List.forall₂_map_left_iff]
  exact ⟨List.Forall₂.flip, List.Forall₂.flip⟩

theorem map_eq_map_of_forall₂ {V : α → β → Prop} {f : α → γ} {g : β → γ}
    (hfg : ∀ a b, V a b → f a = g b) {l : List α} {k : List β} (h : List.Forall₂ V l k) :
    l.map f = k.map g :=
  List.forall₂_eq_eq_eq ▸ List.rel_map hfg h

theorem optionRel_map {δ : Type} {S : α → β → Prop} {W : γ → δ → Prop} {f : α → γ} {g : β → δ}
    {x : Option α} {y : Option β} (h : Option.Rel S x y)
    (hfg : ∀ a ∈ x, ∀ b, S a b → W (f a) (g b)) : Option.Rel W (x.map f) (y.map g) := by
  cases h with
  | none => exact .none
  | some hab => exact .some (hfg _ rfl _ hab)

theorem optionRel_or {S : α → β → Prop} {x x' : Option α} {y y' : Option β}
    (h : Option.Rel S x y) (h' : Option.Rel S x' y') : Option.Rel S (x.or x') (y.or y') := by
  cases h with
  | none => exact h'
  | some hab => exact .some hab

theorem eq_of_optionRel {x y : Option α} (h : Option.Rel Eq x y) : x = y := by
  cases h with
  | none => rfl
  | some hab => exact congrArg some hab

theorem length_of_mapM_eq_ok {f : α → Except ε β} {l : List α} {out : List β}
    (h : l.mapM f = .ok out) : out.length = l.length :=
  (mapM_eq_ok_iff.mp h).length_eq.symm

theorem exists_of_mem_mapM {f : α → Except ε β} {l : List α} {out : List β}
    (h : l.mapM f = .ok out) {b : β} (hb : b ∈ out) : ∃ a ∈ l, f a = .ok b := by
  induction mapM_eq_ok_iff.mp h with
  | nil => cases hb
  | cons hab hrest ih =>
    rcases List.mem_cons.mp hb with rfl | hb
    · exact ⟨_, List.mem_cons_self, hab⟩
    · obtain ⟨a, ha, hfa⟩ := ih (mapM_eq_ok_iff.mpr hrest) hb
      exact ⟨a, List.mem_cons_of_mem _ ha, hfa⟩

/-- What each step makes of its argument is made of the whole list. -/
theorem map_of_mapM_eq_ok {f : α → Except ε β} {g : β → γ} {k : α → γ} {l : List α}
    {out : List β} (hf : ∀ a b, f a = .ok b → g b = k a) (h : l.mapM f = .ok out) :
    out.map g = l.map k := by
  have hk : List.Forall₂ (fun c a => k a = c) (l.map k) l := map_eq_iff_forall₂.mp rfl
  refine map_eq_iff_forall₂.mpr (forall₂_of_mapM_eq_ok (fun c a b hc hab => ?_) hk h)
  rw [hf a b hab, hc]

theorem foldlM_preserves {P : β → Prop} {f : β → α → Except ε β} {l : List α}
    (hf : ∀ b, ∀ a ∈ l, ∀ b', P b → f b a = .ok b' → P b') {b out : β} (hb : P b)
    (h : l.foldlM f b = .ok out) : P out := by
  induction l generalizing b with
  | nil =>
    cases h
    exact hb
  | cons a l ih =>
    rw [List.foldlM_cons] at h
    obtain ⟨next, hnext, h⟩ := bind_eq_ok_iff.mp h
    have hrest : ∀ b, ∀ a ∈ l, ∀ b', P b → f b a = .ok b' → P b' :=
      fun b a ha => hf b a (List.mem_cons_of_mem _ ha)
    exact ih hrest (hf b a List.mem_cons_self next hb hnext) h

/-- A run over the item that there may be, where `set` tells what the step makes of it. -/
theorem foldlM_toList {f : β → α → Except ε β} {write : γ → α} {o : Option γ} {b : β}
    (set : β → Option γ → β) (hnone : set b none = b)
    (hsome : ∀ c ∈ o, f b (write c) = .ok (set b (some c))) :
    (o.map write).toList.foldlM f b = .ok (set b o) := by
  cases o with
  | none => exact congrArg Except.ok hnone.symm
  | some c =>
    rw [Option.map_some, Option.toList_some, List.foldlM_cons, hsome c rfl]
    rfl

/-- A computation of which every error satisfies `P`. -/
def FailsOnly (P : ε → Prop) (x : Except ε α) : Prop := ∀ e, x = .error e → P e

namespace FailsOnly

variable {P Q : ε → Prop} {x : Except ε α}

theorem ok (a : α) : FailsOnly P (.ok a) := fun _ h => nomatch h

theorem error {e : ε} (h : P e) : FailsOnly P (.error e : Except ε α) := by
  rintro _ ⟨⟩
  exact h

theorem mono (h : FailsOnly P x) (hPQ : ∀ e, P e → Q e) : FailsOnly Q x :=
  fun e he => hPQ e (h e he)

theorem bind (h : FailsOnly P x) {f : α → Except ε β} (hf : ∀ a, x = .ok a → FailsOnly P (f a)) :
    FailsOnly P (x >>= f) := by
  cases x with
  | error e => exact error (h e rfl)
  | ok a => exact hf a rfl

theorem map (h : FailsOnly P x) (f : α → β) : FailsOnly P (f <$> x) := by
  rw [map_eq_pure_bind]
  exact h.bind fun a _ => ok (f a)

theorem mapM {f : α → Except ε β} {l : List α} (h : ∀ a ∈ l, FailsOnly P (f a)) :
    FailsOnly P (l.mapM f) := by
  induction l with
  | nil => exact ok []
  | cons a l ih =>
    rw [List.mapM_cons]
    exact (h a List.mem_cons_self).bind fun b _ =>
      (ih fun a ha => h a (List.mem_cons_of_mem _ ha)).bind fun bs _ => ok (b :: bs)

theorem foldlM {f : β → α → Except ε β} {l : List α} (h : ∀ b, ∀ a ∈ l, FailsOnly P (f b a))
    (b : β) : FailsOnly P (l.foldlM f b) := by
  induction l generalizing b with
  | nil => exact ok b
  | cons a l ih =>
    rw [List.foldlM_cons]
    exact (h b a List.mem_cons_self).bind fun next _ =>
      ih (fun b a ha => h b a (List.mem_cons_of_mem _ ha)) next

end FailsOnly

end ResultSchema
