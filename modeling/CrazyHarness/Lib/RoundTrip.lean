import CrazyHarness.Lib.Decode

/-! # Reading what was written

`Rereads dec enc`: what `dec` has read, it reads again, as the same value, from what `enc` writes of it.
A validation may change what it reads, so that not every value comes back, but those that it has read
do.  A model is built of the basic types by lists, optional values and fields, and so is this:
`Rereads.listOf`, `Rereads.nullable`, `reread_field`. -/

namespace Lib

variable {α : Type}

namespace Json

/-- What `dec` has read, it reads again from what `enc` writes of it. -/
def Rereads (dec : Json → Option α) (enc : α → Json) : Prop :=
  ∀ v a, dec v = some a → dec (enc a) = some a

variable {dec : Json → Option α} {enc : α → Json} {as : List α}

/-! ### Basic types -/

theorem rereads_asDict : Rereads asDict dict := fun _ _ _ => rfl

theorem laxInt_int (n : ℤ) : laxInt (int n) = some n := rfl

theorem laxBool_bool (b : Bool) : laxBool (bool b) = some b := rfl

theorem rereads_boundedInt (ge : ℤ) (le : Option ℤ) : Rereads (boundedInt ge le) int := by
  intro v n h
  obtain ⟨m, -, hm⟩ := Option.bind_eq_some_iff.mp h
  split at hm
  next hbounds =>
    obtain rfl := Option.some.inj hm
    show (if _ then _ else _) = _
    exact if_pos hbounds
  next => cases hm

/-- What is read as a float is a float. -/
theorem rereads_laxFloat : Rereads laxFloat id := by
  intro v a h
  suffices hfloat : ∃ q text, a = float q text by
    obtain ⟨q, text, rfl⟩ := hfloat
    rfl
  unfold laxFloat at h
  split at h
  next q text => exact ⟨q, text, (Option.some.inj h).symm⟩
  next n => exact ⟨_, _, (Option.some.inj h).symm⟩
  next b =>
    cases b with
    | true => exact ⟨1, "1.0", (Option.some.inj h).symm⟩
    | false => exact ⟨0, "0.0", (Option.some.inj h).symm⟩
  next s =>
    obtain ⟨q, -, hq⟩ := Option.map_eq_some_iff.mp h
    exact ⟨q, _, hq.symm⟩
  next => cases h

/-- What has been trimmed is not trimmed again. -/
theorem rereads_nonEmptyText : Rereads nonEmptyText str := by
  intro v s h
  obtain ⟨t, -, ht⟩ := Option.bind_eq_some_iff.mp h
  split at ht
  next => cases ht
  next hne =>
    obtain rfl := Option.some.inj ht
    simp only [nonEmptyText, asStr_str, Option.bind_some, stripWhitespace_stripWhitespace, if_neg hne]

theorem textSet_ofTextSet (s : Finset String) : textSet (ofTextSet s) = some s := by
  have hlist : listOf asStr (ofTextSet s) = some (s.sort (· ≤ ·)) := listOf_map asStr_str _
  rw [textSet, hlist, Option.map_some, Finset.sort_toFinset]

/-! ### Lists and optional values -/

/-- The elements of a list that was read have been read. -/
theorem read_of_mem_listOf {v : Json} {a : α} (h : listOf dec v = some as) (ha : a ∈ as) :
    ∃ w, dec w = some a := by
  cases v with
  | list vs =>
      replace h : vs.mapM dec = some as := h
      induction vs generalizing as with
      | nil =>
          obtain rfl := Option.some.inj h
          cases ha
      | cons v vs ih =>
          rw [List.mapM_cons] at h
          obtain ⟨b, hb, h⟩ := Option.bind_eq_some_iff.mp h
          obtain ⟨rest, hrest, hcons⟩ := Option.bind_eq_some_iff.mp h
          obtain rfl := Option.some.inj hcons
          rcases List.mem_cons.mp ha with rfl | ha
          · exact ⟨v, hb⟩
          · exact ih ha hrest
  | _ => cases h

/-- A list that was written is read, if its elements are. -/
theorem listOf_map_of_mem (h : ∀ a ∈ as, dec (enc a) = some a) : listOf dec (list (as.map enc)) = some as := by
  show (as.map enc).mapM dec = some as
  induction as with
  | nil => rfl
  | cons a as ih =>
      obtain ⟨ha, has⟩ := List.forall_mem_cons.mp h
      rw [List.map_cons, List.mapM_cons, ha, ih has]
      rfl

theorem Rereads.listOf (h : Rereads dec enc) : Rereads (listOf dec) (fun as => list (as.map enc)) := by
  intro v as hread
  refine listOf_map_of_mem (fun a ha => ?_)
  obtain ⟨w, hw⟩ := read_of_mem_listOf hread ha
  exact h w a hw

/-- An optional value, where `None` is not read as a value. -/
theorem Rereads.nullable (h : Rereads dec enc) (hnull : dec null = none) :
    Rereads (nullable dec) (fun o => (o.map enc).getD null) := by
  intro v o hread
  cases o with
  | none => rfl
  | some a =>
      have hvalue : dec v = some a := by
        cases v with
        | null => cases hread
        | _ =>
            obtain ⟨b, hb, heq⟩ := Option.map_eq_some_iff.mp hread
            rwa [Option.some.inj heq] at hb
      have hagain := h v a hvalue
      show Json.nullable dec (enc a) = some (some a)
      cases henc : enc a with
      | null =>
          rw [henc, hnull] at hagain
          cases hagain
      | _ =>
          rw [henc] at hagain
          simp only [Json.nullable, hagain, Option.map_some]

end Json

/-! ### Fields -/

namespace Dict

variable {dec : Json → Option α} {enc : α → Json} {d : Dict} {key : String} {a default : α}

/-- Reading a model that has these fields and no others. -/
theorem read_record {β : Type} {keys : List String} {f : Dict → Option β} {b : Option β}
    (hkeys : d.all (fun kv => kv.1 ∈ keys) = true) (hf : f d = b) :
    ((Json.dict d).asDict >>= fun d => d.onlyFields keys >>= fun _ => f d) = b := by
  show (d.onlyFields keys >>= fun _ => f d) = b
  rw [onlyFields, if_pos hkeys]
  exact hf

theorem reread_field (hr : Json.Rereads dec enc) (h : d.field key dec = some a) :
    dec (enc a) = some a := by
  obtain ⟨v, -, hv⟩ := Option.bind_eq_some_iff.mp h
  exact hr v a hv

theorem reread_fieldD (hr : Json.Rereads dec enc) (hdefault : dec (enc default) = some default)
    (h : d.fieldD key dec default = some a) : dec (enc a) = some a := by
  unfold fieldD at h
  split at h
  next =>
    obtain rfl := Option.some.inj h
    exact hdefault
  next v _ => exact hr v a h

/-- The elements of a list field that is empty by default have been read. -/
theorem read_of_mem {as : List α} (h : d.fieldD key (Json.listOf dec) [] = some as) (ha : a ∈ as) :
    ∃ v, dec v = some a := by
  unfold fieldD at h
  split at h
  next =>
    obtain rfl := Option.some.inj h
    cases ha
  next v _ => exact Json.read_of_mem_listOf h ha

end Dict

end Lib
