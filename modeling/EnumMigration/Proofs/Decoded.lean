import EnumMigration.Proofs.Codecs

/-!
# What reading can give

Reading is free about how a value is spelled and strict about the value: whatever is
read by the codec of a list or a record is made of values that were read by the codecs
of its parts, or that stand for the absence of a field.  So a bound that one codec
enforces, like the one on numbers, holds everywhere in what was read.

A record is read into slots, from an object, or in order, from a list.  For an object,
`Fields.Held` says that a slot is filled only with what the codec of its field reads;
every member keeps this, in whatever order the members come.
-/

namespace EnumMigration.Json

/-- A value that a codec can read from some tokens. -/
def Codec.Obtains {α : Type} (codec : Codec α) (value : α) : Prop :=
  ∃ document rest, codec.decode document = .ok (value, rest)

/-- A value that a field can get: one that is read, or the one that stands for absence. -/
def Field.Obtains {α : Type} (field : Field α) (value : α) : Prop :=
  field.codec.Obtains value ∨ field.absent = some value

namespace Codec

variable {α : Type} {codec : Codec α}

theorem obtains_of_read {text : String} {value : α} (h : codec.read text = .ok value) :
    codec.Obtains value := by
  unfold read at h
  split at h
  · rename_i found hdecode
    obtain rfl : found = value := Except.ok.inj h
    exact ⟨_, _, hdecode⟩
  · cases h
  · cases h

theorem lt_wordBound_of_value? {numeral : Numeral} {n : Nat}
    (h : numeral.value? = some (.natural n)) : n < wordBound := by
  unfold Numeral.value? at h
  dsimp only at h
  split at h
  · rename_i hsmall
    obtain ⟨-, hbound⟩ := Bool.and_eq_true_iff.mp hsmall
    split at h
    · cases h
      exact of_decide_eq_true hbound
    · split at h <;> cases h
  · obtain ⟨x, -, hx⟩ := Option.map_eq_some_iff.mp h
    cases hx

theorem lt_wordBound_of_obtains {n : Nat} (h : count.Obtains n) : n < wordBound := by
  obtain ⟨document, rest, hdecode⟩ := h
  simp only [count] at hdecode
  unfold Decoder.count at hdecode
  split at hdecode
  · rename_i numeral tail
    cases hvalue : numeral.value? with
    | none => simp [hvalue] at hdecode
    | some value =>
        cases value with
        | negative m => simp [hvalue] at hdecode
        | double x => simp [hvalue] at hdecode
        | natural m =>
            simp only [hvalue] at hdecode
            obtain ⟨rfl, -⟩ := Prod.mk.inj (Except.ok.inj hdecode)
            exact lt_wordBound_of_value? hvalue
  · cases hdecode

theorem obtains_of_mem_moreItems {fuel : Nat} {document rest : List Token} {items : List α}
    (h : Decoder.moreItems codec.decode fuel document = .ok (items, rest)) :
    ∀ item ∈ items, codec.Obtains item := by
  fun_induction Decoder.moreItems codec.decode fuel document generalizing items rest with
  | case1 => cases h; nofun
  | case2 => cases h
  | case3 => cases h
  | case4 fuel tail item behind hfirst items' rest' hmore ih =>
      cases h
      exact List.forall_mem_cons.mpr ⟨⟨_, _, hfirst⟩, ih hmore⟩
  | case5 => cases h

theorem obtains_of_obtains_list {items : List α} (h : codec.list.Obtains items) :
    ∀ item ∈ items, codec.Obtains item := by
  obtain ⟨document, rest, hdecode⟩ := h
  simp only [list] at hdecode
  unfold Decoder.list at hdecode
  split at hdecode
  · cases hdecode
    exact List.forall_mem_nil _
  · rename_i tail _
    cases hfirst : codec.decode tail with
    | error e => simp [hfirst] at hdecode
    | ok found =>
        cases hmore : Decoder.moreItems codec.decode found.2.length found.2 with
        | error e => simp [hfirst, hmore] at hdecode
        | ok more =>
            simp only [hfirst, hmore] at hdecode
            cases hdecode
            exact List.forall_mem_cons.mpr ⟨⟨_, _, hfirst⟩, obtains_of_mem_moreItems hmore⟩
  · cases hdecode

end Codec

/-! ## Records -/

namespace Fields

variable {β σ : Type} {fields : Fields β σ} {slots slots' : σ} {document rest : List Token}

/-- Slots that hold nothing but what the codecs of their fields read. -/
def Held : {β σ : Type} → Fields β σ → σ → Prop
  | _, _, .nil, _ => True
  | _, _, .cons field rest, (own, others) =>
    (∀ value, own = some value → field.codec.Obtains value) ∧ rest.Held others

theorem held_empty (fields : Fields β σ) : fields.Held fields.empty := by
  induction fields with
  | nil => trivial
  | cons field fields ih => exact ⟨nofun, ih⟩

theorem Held.place {name : String} {fill : Decoder σ} (h : fields.Held slots)
    (hplace : fields.place name slots = .slot fill)
    (hfill : fill document = .ok (slots', rest)) : fields.Held slots' := by
  induction fields generalizing document rest with
  | nil => cases hplace
  | cons field fields ih =>
      obtain ⟨own, others⟩ := slots
      obtain ⟨hown, hothers⟩ := h
      rw [Fields.place] at hplace
      split at hplace
      · split at hplace
        · cases hplace
        · cases hplace
          cases hvalue : field.codec.decode document with
          | error e => simp [hvalue] at hfill
          | ok found =>
              simp only [hvalue] at hfill
              cases hfill
              refine ⟨fun value heq => ?_, hothers⟩
              obtain rfl := Option.some.inj heq
              exact ⟨_, _, hvalue⟩
      · split at hplace
        · cases hplace
        · cases hplace
        · rename_i inner hinner
          cases hplace
          cases hvalue : inner document with
          | error e => simp [hvalue] at hfill
          | ok found =>
              simp only [hvalue] at hfill
              cases hfill
              exact ⟨hown, ih hothers hinner hvalue⟩

theorem Held.member {name : String} (h : fields.Held slots)
    (hmember : fields.member name slots document = .ok (slots', rest)) : fields.Held slots' := by
  unfold Fields.member at hmember
  split at hmember
  · cases hmember
  · split at hmember
    · cases hmember
      exact h
    · cases hmember
  · rename_i hplace
    exact h.place hplace hmember
  · cases hmember

theorem Held.moreMembers {fuel : Nat} (h : fields.Held slots)
    (hmembers : fields.moreMembers fuel slots document = .ok (slots', rest)) :
    fields.Held slots' := by
  fun_induction Fields.moreMembers fields fuel slots document generalizing slots' rest with
  | case1 => cases hmembers; exact h
  | case2 fuel slots name tail next behind hmember ih => exact ih (h.member hmember) hmembers
  | case3 => cases hmembers
  | case4 => cases hmembers

theorem held_of_members (h : fields.members document = .ok (slots, rest)) :
    fields.Held slots := by
  unfold Fields.members at h
  split at h
  · cases h
    exact held_empty fields
  · split at h
    · rename_i hmember
      exact ((held_empty fields).member hmember).moreMembers h
    · cases h
  · cases h

theorem Held.finish {values : β} (h : fields.Held slots)
    (hfinish : fields.finish slots = .ok values) : fields.All Field.Obtains values := by
  induction fields with
  | nil => trivial
  | cons field fields ih =>
      obtain ⟨own, others⟩ := slots
      obtain ⟨hown, hothers⟩ := h
      simp only [Fields.finish] at hfinish
      split at hfinish
      · cases hfinish
      · rename_i value hvalue
        split at hfinish
        · rename_i others' hrest
          cases hfinish
          refine ⟨?_, ih hothers hrest⟩
          rcases Option.or_eq_some_iff.mp hvalue with hread | ⟨-, habsent⟩
          · exact .inl (hown value hread)
          · exact .inr habsent
        · cases hfinish

theorem all_obtains_of_items {name : String} {total index : Nat} {values : β}
    (h : fields.items name total index document = .ok (values, rest)) :
    fields.All Field.Obtains values := by
  induction fields generalizing index document rest with
  | nil => trivial
  | cons field fields ih =>
      unfold Fields.items at h
      dsimp only at h
      split at h
      · cases h
      -- the list ends before this field, which then needs a value that stands for absence
      · split at h
        · cases h
        · rename_i value habsent
          split at h
          · rename_i hrest
            cases h
            exact ⟨.inr habsent, ih hrest⟩
          · cases h
      · split at h
        · cases h
        · rename_i hvalue
          split at h
          · rename_i hrest
            cases h
            exact ⟨.inl ⟨_, _, hvalue⟩, ih hrest⟩
          · cases h

theorem all_obtains_of_decode {name : String} {values : β}
    (h : fields.decode name document = .ok (values, rest)) :
    fields.All Field.Obtains values := by
  unfold Fields.decode at h
  split at h
  · split at h
    · cases h
    · rename_i hmembers
      split at h
      · rename_i hfinish
        cases h
        exact (held_of_members hmembers).finish hfinish
      · cases h
  · exact all_obtains_of_items h
  · cases h

end Fields

/-- What the codec of a record reads is put together from what its fields can get. -/
theorem Codec.obtains_record {α β σ : Type} {name : String} {fields : Fields β σ} {split : α → β}
    {join : β → α} {value : α} (h : (Codec.record name fields split join).Obtains value) :
    ∃ values, join values = value ∧ fields.All Field.Obtains values := by
  obtain ⟨document, rest, hdecode⟩ := h
  simp only [record] at hdecode
  split at hdecode
  · rename_i hvalues
    cases hdecode
    exact ⟨_, rfl, Fields.all_obtains_of_decode hvalues⟩
  · cases hdecode

end EnumMigration.Json
