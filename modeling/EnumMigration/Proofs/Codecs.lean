import EnumMigration.Json.Codec
import EnumMigration.Proofs.JsonText

/-!
# Values that a codec keeps

A codec keeps a value if reading gives it back, whatever follows what was written.
The tokens must also be legible and begin like a value, so that lists, options and
records of kept values are kept in turn (`Codec.Keeps`).

## Strategy

A record is read member by member into slots, and each member may stand anywhere.
The members of a written record come in the order of the fields, so the proof follows
the fields: `Embeds` says that the fields still to come are found in the record as
they are found among themselves.  A hidden field is not written, and its slot stays
empty until the value that stands for its absence is put in.
-/

namespace EnumMigration.Json

/-! ## One value -/

/-- Tokens that stay legible in front of whatever does not begin with a number. -/
def Joins (item : List Token) : Prop :=
  ∀ rest, Legible rest → startsWithNumber rest = false → Legible (item ++ rest)

/-- Whether a token begins a value other than `null`. -/
def Token.beginsValue : Token → Bool
  | openObject | openList | bool _ | number _ | string _ => true
  | _ => false

/-- A codec that reads a value as it writes it. -/
structure Codec.Keeps {α : Type} (codec : Codec α) (value : α) : Prop where
  decode_encode : ∀ rest, codec.decode (codec.encode value ++ rest) = .ok (value, rest)
  joins : Joins (codec.encode value)
  begins : ∃ token tail, codec.encode value = token :: tail ∧ token.beginsValue = true

/-- Whether a token is a bracket, a comma or a colon. -/
def Token.isMark : Token → Bool
  | openObject | closeObject | openList | closeList | colon | comma => true
  | _ => false

theorem joins_nil : Joins [] := fun _ hrest _ => hrest

theorem joins_singleton {token : Token} (hplain : token.Plain) : Joins [token] :=
  fun _ hrest hstart => ⟨hplain, fun _ => hstart, hrest⟩

theorem legible_mark {token : Token} (hmark : token.isMark = true) {rest : List Token}
    (hrest : Legible rest) : Legible (token :: rest) := by
  cases token with
  | openObject | closeObject | openList | closeList | colon | comma =>
      exact ⟨trivial, nofun, hrest⟩
  | null | bool | number | string | invalid => cases hmark

theorem startsWithNumber_mark {token : Token} (hmark : token.isMark = true) (rest : List Token) :
    startsWithNumber (token :: rest) = false := by
  cases token with
  | openObject | closeObject | openList | closeList | colon | comma => rfl
  | null | bool | number | string | invalid => cases hmark

theorem joins_separated {items : List (List Token)} (h : ∀ item ∈ items, Joins item) :
    Joins (Codec.separated items) := by
  induction items with
  | nil => exact joins_nil
  | cons item items ih =>
      obtain ⟨hitem, hitems⟩ := List.forall_mem_cons.mp h
      cases items with
      | nil => exact hitem
      | cons next items =>
          intro rest hrest hstart
          rw [Codec.separated, List.append_assoc]
          exact hitem _ (legible_mark rfl (ih hitems rest hrest hstart)) rfl

/-- Brackets around items. -/
theorem joins_bracketed {opening closing : Token} (hopening : opening.isMark = true)
    (hclosing : closing.isMark = true) {items : List (List Token)}
    (h : ∀ item ∈ items, Joins item) :
    Joins (opening :: Codec.separated items ++ [closing]) := by
  intro rest hrest hstart
  rw [List.append_assoc]
  exact legible_mark hopening (joins_separated h (closing :: rest) (legible_mark hclosing hrest)
    (startsWithNumber_mark hclosing rest))

/-- Items behind the first one stand behind a comma each. -/
theorem separated_cons (item : List Token) (items : List (List Token)) :
    Codec.separated (item :: items) = item ++ items.flatMap (.comma :: ·) := by
  induction items generalizing item with
  | nil => exact (List.append_nil item).symm
  | cons next items ih => rw [Codec.separated, ih, List.flatMap_cons]; rfl

/-- As many tokens as items, and more, so that the readers do not run out of fuel. -/
theorem length_le_length_flatMap (items : List (List Token)) (rest : List Token) :
    items.length ≤ (items.flatMap (.comma :: ·) ++ rest).length := by
  induction items with
  | nil => exact Nat.zero_le _
  | cons item items ih =>
      simp only [List.flatMap_cons, List.length_append, List.length_cons] at ih ⊢
      omega

namespace Codec

variable {α : Type} {codec : Codec α}

theorem Keeps.legible {value : α} (h : codec.Keeps value) : Legible (codec.encode value) := by
  have hjoined := h.joins [] trivial rfl
  rwa [List.append_nil] at hjoined

theorem Keeps.read_eq {value : α} (h : codec.Keeps value) {text : String}
    (htokens : tokens text.toList = codec.encode value) : codec.read text = .ok value := by
  have hdecode := h.decode_encode []
  rw [List.append_nil, ← htokens] at hdecode
  rw [read, hdecode]

theorem Keeps.read_write {value : α} (h : codec.Keeps value) :
    codec.read (codec.write value) = .ok value :=
  h.read_eq (tokens_compact h.legible)

theorem Keeps.read_writePretty {value : α} (h : codec.Keeps value) :
    codec.read (codec.writePretty value) = .ok value :=
  h.read_eq (tokens_pretty h.legible)

theorem keeps_string (text : String) : string.Keeps text :=
  ⟨fun _ => rfl, joins_singleton ⟨text, rfl⟩, _, [], rfl, rfl⟩

theorem keeps_flag (value : Bool) : flag.Keeps value :=
  ⟨fun _ => rfl, joins_singleton trivial, _, [], rfl, rfl⟩

theorem keeps_count {n : Nat} (h : n < wordBound) : count.Keeps n := by
  refine ⟨fun rest => ?_, joins_singleton ⟨n, rfl⟩, _, [], rfl, rfl⟩
  have hvalue : (Numeral.ofNat n).value? = some (.natural n) := by
    simp [Numeral.value?, Numeral.ofNat, digitsValue_toDigits, h]
  simp [count, Decoder.count, hvalue]

/-! ## Lists and options -/

theorem Keeps.option_some {value : α} (h : codec.Keeps value) :
    codec.option.Keeps (some value) := by
  refine ⟨fun rest => ?_, h.joins, h.begins⟩
  obtain ⟨token, tail, hencode, hbegins⟩ := h.begins
  have hdecode := h.decode_encode rest
  show Decoder.optional codec.decode (codec.encode value ++ rest) = _
  rw [hencode, List.cons_append] at hdecode ⊢
  unfold Decoder.optional
  split
  · rename_i heq
    obtain rfl : token = .null := (List.cons.inj heq).1
    cases hbegins
  · rw [hdecode]

theorem moreItems_eq {items : List α} (h : ∀ item ∈ items, codec.Keeps item) {fuel : Nat}
    (hfuel : items.length ≤ fuel) (rest : List Token) :
    Decoder.moreItems codec.decode fuel
      ((items.map codec.encode).flatMap (.comma :: ·) ++ .closeList :: rest) =
        .ok (items, rest) := by
  induction items generalizing fuel with
  | nil => cases fuel <;> rfl
  | cons item items ih =>
      obtain ⟨hitem, hitems⟩ := List.forall_mem_cons.mp h
      cases fuel with
      | zero => cases hfuel
      | succ fuel =>
          have hmore := ih hitems (Nat.le_of_succ_le_succ hfuel)
          rw [List.map_cons, List.flatMap_cons, List.append_assoc, List.cons_append]
          unfold Decoder.moreItems
          rw [hitem.decode_encode]
          simp only [hmore]

theorem keeps_list {items : List α} (h : ∀ item ∈ items, codec.Keeps item) :
    codec.list.Keeps items := by
  have hjoins : ∀ item ∈ items.map codec.encode, Joins item := by
    intro item hitem
    obtain ⟨value, hvalue, rfl⟩ := List.mem_map.mp hitem
    exact (h value hvalue).joins
  have hbrackets : Joins (.openList :: separated (items.map codec.encode) ++ [.closeList]) :=
    joins_bracketed rfl rfl hjoins
  refine ⟨fun rest => ?_, hbrackets, _, _, rfl, rfl⟩
  cases items with
  | nil => rfl
  | cons item items =>
      obtain ⟨hitem, hitems⟩ := List.forall_mem_cons.mp h
      obtain ⟨token, tail, hencode, hbegins⟩ := hitem.begins
      let more := (items.map codec.encode).flatMap (.comma :: ·) ++ .closeList :: rest
      have hfirst : codec.decode (token :: (tail ++ more)) = .ok (item, more) := by
        rw [← hitem.decode_encode more, hencode]
        rfl
      have hlength : items.length ≤ more.length := by
        have hcommas := length_le_length_flatMap (items.map codec.encode) (.closeList :: rest)
        rwa [List.length_map] at hcommas
      have hmore : Decoder.moreItems codec.decode more.length more = .ok (items, rest) :=
        moreItems_eq hitems hlength rest
      have htext : codec.list.encode (item :: items) ++ rest =
          .openList :: token :: (tail ++ more) := by
        simp [list, separated_cons, hencode, more]
      show Decoder.list codec.decode (codec.list.encode (item :: items) ++ rest) = _
      rw [htext, Decoder.list, hfirst]
      · simp only [hmore]
      · rintro rest heq
        obtain rfl : token = .closeList := (List.cons.inj heq).1
        cases hbegins

end Codec

/-! ## Records -/

/-- A field that is read as it is written.  A value that is not written has to be the one
that stands for absence. -/
def Field.Keeps {α : Type} (field : Field α) (value : α) : Prop :=
  if field.hidden value then field.absent = some value else field.codec.Keeps value

namespace Fields

/-- Something holds of every field and its value. -/
def All (Holds : {α : Type} → Field α → α → Prop) : {β σ : Type} → Fields β σ → β → Prop
  | _, _, .nil, _ => True
  | _, _, .cons field rest, (value, values) => Holds field value ∧ rest.All Holds values

/-- The names of the fields. -/
def names : {β σ : Type} → Fields β σ → List String
  | _, _, .nil => []
  | _, _, .cons field rest => field.name :: rest.names

/-- The slots of a record that was read as it was written. -/
def filled : {β σ : Type} → Fields β σ → β → σ
  | _, _, .nil, _ => ()
  | _, _, .cons field rest, (value, values) =>
    (if field.hidden value then none else some value, rest.filled values)

/-- What a placement becomes if its slots are a part of others. -/
def Placement.map {σ τ : Type} (inject : σ → τ) : Placement σ → Placement τ
  | .unknown => .unknown
  | .duplicate => .duplicate
  | .slot fill => .slot fun document =>
    match fill document with
    | .ok (slots, rest) => .ok (inject slots, rest)
    | .error e => .error e

variable {β σ γ τ : Type} {fields : Fields β σ} {record : Fields γ τ} {inject : σ → τ}

/-- Fields that are found in a record as they are found among themselves. -/
def Embeds (fields : Fields β σ) (record : Fields γ τ) (inject : σ → τ) : Prop :=
  ∀ name ∈ fields.names, ∀ slots,
    record.place name (inject slots) = (fields.place name slots).map inject

theorem embeds_self (record : Fields γ τ) : record.Embeds record id := by
  intro name _ slots
  cases hplace : record.place name slots with
  | unknown | duplicate => simp [Placement.map, hplace]
  | slot fill =>
      simp only [id, hplace, Placement.map]
      congr 1
      funext document
      cases fill document with
      | ok result => rfl
      | error e => rfl

/-- Behind the first field, whatever its slot holds. -/
theorem Embeds.rest {α : Type} {field : Field α} {inject : Option α × σ → τ}
    (h : Embeds (.cons field fields) record inject) (hname : field.name ∉ fields.names)
    (own : Option α) : Embeds fields record fun others => inject (own, others) := by
  intro name hmem others
  have hne : field.name ≠ name := fun heq => hname (heq ▸ hmem)
  rw [h name (List.mem_cons_of_mem _ hmem) (own, others), place, if_neg hne]
  cases fields.place name others with
  | unknown | duplicate => rfl
  | slot fill =>
      simp only [Placement.map]
      congr 1
      funext document
      cases fill document with
      | ok result => rfl
      | error e => rfl

/-- The member of the first field goes into its slot. -/
theorem Embeds.member_eq {α : Type} {field : Field α} {inject : Option α × σ → τ}
    (h : Embeds (.cons field fields) record inject) {value : α} (hkeeps : field.codec.Keeps value)
    (others : σ) (rest : List Token) :
    record.member field.name (inject (none, others))
      (.colon :: (field.codec.encode value ++ rest)) = .ok (inject (some value, others), rest) := by
  have hplace := h field.name (List.mem_cons_self ..) (none, others)
  rw [place, if_pos rfl] at hplace
  unfold member
  rw [hplace]
  simp [Placement.map, hkeeps.decode_encode]

theorem encode_cons_hidden {α : Type} {field : Field α} {value : α}
    (hhidden : field.hidden value = true) (values : β) :
    (Fields.cons field fields).encode (value, values) = fields.encode values := by
  rw [encode, if_pos hhidden]

theorem encode_cons_shown {α : Type} {field : Field α} {value : α}
    (hshown : field.hidden value = false) (values : β) :
    (Fields.cons field fields).encode (value, values) =
      (.string (some field.name) :: .colon :: field.codec.encode value) ::
        fields.encode values := by
  rw [encode, if_neg (by simp [hshown])]

theorem moreMembers_eq (h : fields.Embeds record inject) (hnodup : fields.names.Nodup) {values : β}
    (hkeep : fields.All Field.Keeps values) {fuel : Nat}
    (hfuel : (fields.encode values).length ≤ fuel) (rest : List Token) :
    record.moreMembers fuel (inject fields.empty)
      ((fields.encode values).flatMap (.comma :: ·) ++ .closeObject :: rest) =
        .ok (inject (fields.filled values), rest) := by
  induction fields generalizing fuel with
  | nil => cases fuel <;> rfl
  | cons field fields ih =>
      obtain ⟨value, values⟩ := values
      obtain ⟨hfield, hkeep⟩ := hkeep
      obtain ⟨hname, hnodup⟩ := List.nodup_cons.mp hnodup
      unfold Field.Keeps at hfield
      split at hfield
      · rename_i hhidden
        rw [encode_cons_hidden hhidden] at hfuel ⊢
        rw [empty, filled, if_pos hhidden]
        exact ih (h.rest hname none) hnodup hkeep hfuel
      · rename_i hshown
        rw [encode_cons_shown (by simpa using hshown)] at hfuel ⊢
        cases fuel with
        | zero => cases hfuel
        | succ fuel =>
            have hmore := ih (h.rest hname (some value)) hnodup hkeep
              (Nat.le_of_succ_le_succ hfuel)
            rw [empty, filled, if_neg hshown, List.flatMap_cons, List.append_assoc]
            simp only [List.cons_append, moreMembers]
            rw [h.member_eq hfield]
            exact hmore

theorem members_eq (h : fields.Embeds record inject) (hempty : inject fields.empty = record.empty)
    (hnodup : fields.names.Nodup) {values : β} (hkeep : fields.All Field.Keeps values)
    (rest : List Token) :
    record.members (Codec.separated (fields.encode values) ++ .closeObject :: rest) =
      .ok (inject (fields.filled values), rest) := by
  induction fields with
  | nil =>
      show Except.ok (record.empty, rest) = _
      rw [← hempty]
  | cons field fields ih =>
      obtain ⟨value, values⟩ := values
      obtain ⟨hfield, hkeep⟩ := hkeep
      obtain ⟨hname, hnodup⟩ := List.nodup_cons.mp hnodup
      unfold Field.Keeps at hfield
      split at hfield
      · rename_i hhidden
        rw [encode_cons_hidden hhidden, filled, if_pos hhidden]
        exact ih (h.rest hname none) hempty hnodup hkeep
      · rename_i hshown
        have hcommas := length_le_length_flatMap (fields.encode values) (.closeObject :: rest)
        have hmore := moreMembers_eq (h.rest hname (some value)) hnodup hkeep hcommas rest
        rw [encode_cons_shown (by simpa using hshown), separated_cons, filled, if_neg hshown,
          List.append_assoc]
        simp only [List.cons_append, members]
        rw [← hempty, empty, h.member_eq hfield]
        exact hmore

theorem finish_filled {values : β} (hkeep : fields.All Field.Keeps values) :
    fields.finish (fields.filled values) = .ok values := by
  induction fields with
  | nil => rfl
  | cons field fields ih =>
      obtain ⟨value, values⟩ := values
      obtain ⟨hfield, hkeep⟩ := hkeep
      have hslot : (if field.hidden value then none else some value).or field.absent =
          some value := by
        unfold Field.Keeps at hfield
        split at hfield
        · rename_i hhidden
          rw [if_pos hhidden, hfield]
          rfl
        · rename_i hshown
          rw [if_neg hshown]
          rfl
      simp only [filled, finish, hslot, ih hkeep]

theorem joins_encode {values : β} (hkeep : fields.All Field.Keeps values) :
    ∀ item ∈ fields.encode values, Joins item := by
  induction fields with
  | nil => nofun
  | cons field fields ih =>
      obtain ⟨value, values⟩ := values
      obtain ⟨hfield, hkeep⟩ := hkeep
      unfold Field.Keeps at hfield
      split at hfield
      · rename_i hhidden
        rw [encode_cons_hidden hhidden]
        exact ih hkeep
      · rename_i hshown
        rw [encode_cons_shown (by simpa using hshown)]
        refine List.forall_mem_cons.mpr ⟨?_, ih hkeep⟩
        intro rest hrest hstart
        exact ⟨⟨_, rfl⟩, fun _ => rfl, legible_mark rfl (hfield.joins rest hrest hstart)⟩

end Fields

/-- A record is kept if its fields are, and if they have different names. -/
theorem Codec.keeps_record {α β σ : Type} {name : String} {fields : Fields β σ} {split : α → β}
    {join : β → α} {value : α} (hnodup : fields.names.Nodup)
    (hkeep : fields.All Field.Keeps (split value)) (hjoin : join (split value) = value) :
    (Codec.record name fields split join).Keeps value := by
  have hbrackets :
      Joins (.openObject :: Codec.separated (fields.encode (split value)) ++ [.closeObject]) :=
    joins_bracketed rfl rfl (Fields.joins_encode hkeep)
  refine ⟨fun rest => ?_, hbrackets, _, _, rfl, rfl⟩
  have hmembers := Fields.members_eq (Fields.embeds_self fields) rfl hnodup hkeep rest
  have hdecode : fields.decode name
      (.openObject :: (Codec.separated (fields.encode (split value)) ++ .closeObject :: rest)) =
        .ok (split value, rest) := by
    rw [Fields.decode, hmembers]
    simp only [id, Fields.finish_filled hkeep]
  simp [record, hdecode, hjoin]

end EnumMigration.Json
