import Relabel.ClassFile.Pool
import Relabel.Proofs.ClassFile.Editing
import Relabel.Proofs.Text.ModifiedUtf8

/-!
# Edits of constant pools

A pool *grows* when its entries stay and only texts and strings are put behind them. It *evolves*
when, besides, some of its strings are made to refer to other texts. Texts are never changed, so a
string changes its value only by being redirected itself.

Indexes have two bytes, so that what is said of the index of a new entry holds for pools of at most
65535 slots, which edits of a pool do not exceed.
-/

namespace Relabel.ClassFile

/-- What is put behind the entries of a pool: strings, and texts that are short enough to be
written. -/
def Constant.IsAddition : Constant → Prop
  | .text bytes => bytes.length ≤ 65535
  | .string _ => True
  | _ => False

namespace Pool

/-! ## Looking up -/

theorem get_eq_ok_iff {pool : Pool} {index : UInt16} {constant : Constant} :
    pool.get index = .ok constant ↔
      pool.slots[index.toNat]? = some constant ∧ constant ≠ .unusable := by
  unfold get
  split
  · next missing => simp [missing]
  · next found =>
    rw [found]
    constructor
    · rintro ⟨⟩
    · rintro ⟨⟨⟩, usable⟩
      exact absurd rfl usable
  · next slot usable found =>
    rw [found]
    constructor
    · rintro ⟨⟩
      exact ⟨rfl, usable⟩
    · rintro ⟨⟨⟩, -⟩
      rfl

theorem text_eq (pool : Pool) (index : UInt16) :
    pool.text index =
      match pool.get index with
      | .error fault => .error fault
      | .ok (.text bytes) =>
        match ModifiedUtf8.decode bytes with
        | some value => .ok value
        | none => .error (.invalidText index)
      | .ok _ => .error (.invalidIndex index) := by
  rw [text]
  cases pool.get index with
  | error fault => rfl
  | ok constant =>
    cases constant with
    | text bytes =>
      simp only [bind, Except.bind]
      cases ModifiedUtf8.decode bytes <;> rfl
    | _ => rfl

theorem text_eq_ok_iff {pool : Pool} {index : UInt16} {value : String} :
    pool.text index = .ok value ↔
      ∃ bytes, pool.get index = .ok (.text bytes) ∧ ModifiedUtf8.decode bytes = some value := by
  rw [text_eq]
  split
  · next failed => simp [failed]
  · next bytes found =>
    cases decoded : ModifiedUtf8.decode bytes <;> simp [found, decoded]
  · next constant notText found =>
    refine ⟨nofun, ?_⟩
    rintro ⟨bytes, isText, -⟩
    rw [found] at isText
    exact absurd (Except.ok.inj isText) (notText bytes)

theorem text_of_encode {pool : Pool} {index : UInt16} {value : String}
    (found : pool.get index = .ok (.text (ModifiedUtf8.encode value))) :
    pool.text index = .ok value :=
  text_eq_ok_iff.2 ⟨_, found, ModifiedUtf8.decode_encode value⟩

/-- A text is passed over just if its bytes encode nothing. -/
theorem text?_eq_none_iff {pool : Pool} {index : UInt16} :
    pool.text? index = .ok none ↔
      ∃ bytes, pool.get index = .ok (.text bytes) ∧ ModifiedUtf8.decode bytes = none := by
  have missing {other : UInt16} : pool.get index ≠ .error (.invalidText other) := by
    unfold get
    split <;> simp
  rw [text?, text_eq]
  cases found : pool.get index with
  | error fault =>
    cases fault with
    | invalidText other => exact absurd found missing
    | _ => simp
  | ok constant =>
    cases constant with
    | text bytes => cases decoded : ModifiedUtf8.decode bytes <;> simp [decoded]
    | _ => simp

theorem text?_eq_some_iff {pool : Pool} {index : UInt16} {value : String} :
    pool.text? index = .ok (some value) ↔ pool.text index = .ok value := by
  unfold text?
  split <;> simp [*]

theorem string_eq_ok_iff {pool : Pool} {index : UInt16} {value : String} :
    pool.string index = .ok value ↔
      ∃ text, pool.get index = .ok (.string text) ∧ pool.text text = .ok value := by
  rw [string]
  cases pool.get index with
  | error fault => simp [bind, Except.bind]
  | ok constant => cases constant <;> simp [bind, Except.bind, throw, throwThe, MonadExceptOf.throw]

theorem className_eq_ok_iff {pool : Pool} {index : UInt16} {name : String} :
    pool.className index = .ok name ↔
      ∃ text, pool.get index = .ok (.classRef text) ∧ pool.text text = .ok name := by
  rw [className]
  cases pool.get index with
  | error fault => simp [bind, Except.bind]
  | ok constant => cases constant <;> simp [bind, Except.bind, throw, throwThe, MonadExceptOf.throw]

section

variable {old new : Pool} {index : UInt16}
  (kept : ∀ {index constant}, old.get index = .ok constant → constant.isString = false →
    new.get index = .ok constant)

include kept

/-- Texts mean the same in a pool that has all entries of another one but strings. -/
theorem text_of_kept {value : String} (read : old.text index = .ok value) :
    new.text index = .ok value := by
  obtain ⟨bytes, found, decoded⟩ := text_eq_ok_iff.1 read
  exact text_eq_ok_iff.2 ⟨bytes, kept found rfl, decoded⟩

theorem className_of_kept {name : String} (read : old.className index = .ok name) :
    new.className index = .ok name := by
  obtain ⟨text, isClass, isName⟩ := className_eq_ok_iff.1 read
  exact className_eq_ok_iff.2 ⟨text, kept isClass rfl, text_of_kept kept isName⟩

end

/-! ## Growing and evolving -/

/-- The entries of a pool stay where they are, and behind them there are only texts and strings. -/
structure Grows (old new : Pool) : Prop where
  kept : ∀ {index : Nat} {constant : Constant}, old.slots[index]? = some constant →
    new.slots[index]? = some constant
  added : ∀ {index : Nat} {constant : Constant}, old.size ≤ index →
    new.slots[index]? = some constant → constant.IsAddition
  bounded : old.size ≤ 65535 → new.size ≤ 65535

/-- The entries of a pool stay where they are, except that strings may refer to other texts, and
behind them there are only texts and strings. -/
structure Evolves (old new : Pool) : Prop where
  kept : ∀ {index : Nat} {constant : Constant}, old.slots[index]? = some constant →
    constant.isString = false → new.slots[index]? = some constant
  string : ∀ {index : Nat} {text : UInt16}, old.slots[index]? = some (.string text) →
    ∃ other, new.slots[index]? = some (.string other)
  /-- A string that refers to something else than before refers to a text. -/
  target : ∀ {index : Nat} {text other : UInt16}, old.slots[index]? = some (.string text) →
    new.slots[index]? = some (.string other) →
      other = text ∨ ∃ bytes, new.get other = .ok (.text bytes)
  added : ∀ {index : Nat} {constant : Constant}, old.size ≤ index →
    new.slots[index]? = some constant → constant.IsAddition
  bounded : old.size ≤ 65535 → new.size ≤ 65535

theorem getElem?_eq_none_of_size_le {pool : Pool} {index : Nat} (beyond : pool.size ≤ index) :
    pool.slots[index]? = none :=
  Array.getElem?_eq_none beyond

theorem Grows.evolves {old new : Pool} (grows : Grows old new) : Evolves old new where
  kept found _ := grows.kept found
  string found := ⟨_, grows.kept found⟩
  target found now := by
    rw [grows.kept found] at now
    cases now
    exact .inl rfl
  added := grows.added
  bounded := grows.bounded

theorem Grows.refl (pool : Pool) : Grows pool pool where
  kept found := found
  added beyond found := by simp [getElem?_eq_none_of_size_le beyond] at found
  bounded small := small

/-- No entry is taken away. -/
theorem Grows.size_le {old new : Pool} (grows : Grows old new) : old.size ≤ new.size := by
  refine Nat.le_of_not_lt fun smaller => ?_
  have found : old.slots[new.size]? = some old.slots[new.size] := Array.getElem?_eq_getElem smaller
  have still := grows.kept found
  rw [getElem?_eq_none_of_size_le (Nat.le_refl _)] at still
  cases still

theorem Evolves.refl (pool : Pool) : Evolves pool pool := (Grows.refl pool).evolves

theorem Grows.trans {old middle new : Pool} (first : Grows old middle)
    (second : Grows middle new) : Grows old new where
  kept found := second.kept (first.kept found)
  added {index constant} beyond found := by
    cases earlier : middle.slots[index]? with
    | none =>
      exact second.added (Array.getElem?_eq_none_iff.1 earlier) found
    | some slot =>
      rw [second.kept earlier] at found
      cases found
      exact first.added beyond earlier
  bounded small := second.bounded (first.bounded small)

/-- Entries that are no strings are looked up with the same result as before. -/
theorem Evolves.get {old new : Pool} (evolves : Evolves old new) {index : UInt16}
    {constant : Constant} (found : old.get index = .ok constant)
    (notString : constant.isString = false) : new.get index = .ok constant := by
  rw [get_eq_ok_iff] at found ⊢
  exact ⟨evolves.kept found.1 notString, found.2⟩

theorem Evolves.trans {old middle new : Pool} (first : Evolves old middle)
    (second : Evolves middle new) : Evolves old new where
  kept found notString := second.kept (first.kept found notString) notString
  string found := by
    obtain ⟨other, isString⟩ := first.string found
    exact second.string isString
  target {index text other} found now := by
    obtain ⟨between, isString⟩ := first.string found
    rcases second.target isString now with rfl | isText
    · rcases first.target found isString with same | ⟨bytes, isText⟩
      · exact .inl same
      · exact .inr ⟨bytes, second.get isText rfl⟩
    · exact .inr isText
  added {index constant} beyond found := by
    cases earlier : middle.slots[index]? with
    | none => exact second.added (Array.getElem?_eq_none_iff.1 earlier) found
    | some slot =>
      cases isString : slot.isString with
      | false =>
        rw [second.kept earlier isString] at found
        cases found
        exact first.added beyond earlier
      | true =>
        -- Only a string may have changed, and then it is a string still.
        cases slot <;> cases isString
        obtain ⟨other, laterString⟩ := second.string earlier
        rw [laterString] at found
        cases found
        exact trivial
  bounded small := second.bounded (first.bounded small)

theorem Grows.get {old new : Pool} (grows : Grows old new) {index : UInt16} {constant : Constant}
    (found : old.get index = .ok constant) : new.get index = .ok constant := by
  rw [get_eq_ok_iff] at found ⊢
  exact ⟨grows.kept found.1, found.2⟩

theorem Evolves.text {old new : Pool} (evolves : Evolves old new) {index : UInt16} {value : String}
    (read : old.text index = .ok value) : new.text index = .ok value :=
  text_of_kept evolves.get read

theorem Evolves.text? {old new : Pool} (evolves : Evolves old new) {index : UInt16}
    {value? : Option String} (read : old.text? index = .ok value?) :
    new.text? index = .ok value? := by
  cases value? with
  | none =>
    obtain ⟨bytes, found, undecoded⟩ := text?_eq_none_iff.1 read
    exact text?_eq_none_iff.2 ⟨bytes, evolves.get found rfl, undecoded⟩
  | some value => exact text?_eq_some_iff.2 (evolves.text (text?_eq_some_iff.1 read))

/-- An index of an entry that was there denotes the same text in a later pool, or still none. -/
theorem Evolves.text_eq_of_lt {old new : Pool} (evolves : Evolves old new) {index : UInt16}
    (inside : index.toNat < old.size) : new.text index = old.text index := by
  have here : old.slots[index.toNat]? = some old.slots[index.toNat] :=
    Array.getElem?_eq_getElem inside
  generalize old.slots[index.toNat] = slot at here
  rw [text_eq, text_eq, Pool.get, Pool.get, here]
  cases slot with
  | string text =>
    obtain ⟨other, isString⟩ := evolves.string here
    rw [isString]
  | _ => rw [evolves.kept here rfl]

theorem Evolves.className {old new : Pool} (evolves : Evolves old new) {index : UInt16}
    {name : String} (read : old.className index = .ok name) : new.className index = .ok name :=
  className_of_kept evolves.get read

/-! ## Single edits -/

theorem size_append {pool : Pool} {constant : Constant} (narrow : constant.isWide = false) :
    (pool.append constant).size = pool.size + 1 := by
  simp [append, narrow, size]

theorem getElem?_append_of_lt {pool : Pool} {constant : Constant} {index : Nat}
    (inside : index < pool.size) :
    (pool.append constant).slots[index]? = pool.slots[index]? := by
  have inside : index < pool.slots.size := inside
  unfold append
  split
  · simp only [Array.getElem?_push, Array.size_push]
    rw [if_neg (by omega), if_neg (by omega)]
  · rw [Array.getElem?_push_lt inside, Array.getElem?_eq_getElem inside]

theorem getElem?_append_size (pool : Pool) (constant : Constant) :
    (pool.append constant).slots[pool.size]? = some constant := by
  unfold append
  split
  · rw [Array.getElem?_push_lt (by simp [size])]
    simp [size]
  · exact Array.getElem?_push_size

theorem getElem?_append {pool : Pool} {constant : Constant} (narrow : constant.isWide = false)
    (index : Nat) :
    (pool.append constant).slots[index]? =
      if index = pool.size then some constant else pool.slots[index]? := by
  by_cases last : index = pool.size
  · subst last
    simp [append, narrow, size]
  · have other : index ≠ pool.slots.size := last
    simp [append, narrow, last, Array.getElem?_push, other]

theorem append_grows {pool : Pool} {constant : Constant} (narrow : constant.isWide = false)
    (isAddition : constant.IsAddition) (room : pool.size < 65535) :
    Grows pool (pool.append constant) where
  kept {index slot} found := by
    have inside : index < pool.size := (Array.getElem?_eq_some_iff.1 found).1
    rw [getElem?_append narrow, if_neg (by omega), found]
  added {index slot} beyond found := by
    rw [getElem?_append narrow] at found
    split at found
    · cases found
      exact isAddition
    · simp [getElem?_eq_none_of_size_le beyond] at found
  bounded _ := by
    rw [size_append narrow]
    omega

/-- The index of a new entry looks it up. -/
theorem get_append {pool : Pool} {constant : Constant} (usable : constant ≠ .unusable)
    (room : pool.size < 65535) :
    (pool.append constant).get (UInt16.ofNat pool.size) = .ok constant := by
  have position : (UInt16.ofNat pool.size).toNat = pool.size := by
    rw [UInt16.toNat_ofNat']
    omega
  rw [get_eq_ok_iff, position]
  exact ⟨getElem?_append_size pool constant, usable⟩

/-- An entry is appended if there is room for it and the slot behind it, and else nothing is. -/
theorem push_cases (constant : Constant) (pool : Pool) :
    (pool.size + (if constant.isWide then 2 else 1) ≤ 65535 ∧
        push constant pool = (.ok (UInt16.ofNat pool.size), pool.append constant)) ∨
      push constant pool = (.error .poolFull, pool) := by
  by_cases room : pool.size + (if constant.isWide then 2 else 1) ≤ 65535
  · exact .inl ⟨room, if_pos room⟩
  · exact .inr (if_neg room)

theorem push_eq_ok_iff {pool after : Pool} {constant : Constant} {index : UInt16}
    (narrow : constant.isWide = false) :
    push constant pool = (.ok index, after) ↔
      pool.size < 65535 ∧ index = UInt16.ofNat pool.size ∧ after = pool.append constant := by
  unfold push
  simp only [narrow, Bool.false_eq_true, if_false]
  split
  · next room =>
    constructor
    · rintro ⟨⟩
      exact ⟨by omega, rfl, rfl⟩
    · rintro ⟨-, rfl, rfl⟩
      rfl
  · next full =>
    constructor
    · rintro ⟨⟩
    · rintro ⟨room, -⟩
      omega

/-- What adding a text can come to: it fails and leaves the pool alone, it finds the bytes of the text
in the pool, or it appends them because they are nowhere. -/
theorem addText_cases (value : String) (pool : Pool) :
    (∃ fault, addText value pool = (.error fault, pool)) ∨
      (∃ position, pool.slots[position]? = some (.text (ModifiedUtf8.encode value)) ∧
        addText value pool = (.ok (UInt16.ofNat position), pool)) ∨
      ((∀ position : Nat, pool.slots[position]? ≠ some (.text (ModifiedUtf8.encode value))) ∧
        (ModifiedUtf8.encode value).length ≤ 65535 ∧ pool.size < 65535 ∧
        addText value pool = (.ok (UInt16.ofNat pool.size),
          pool.append (.text (ModifiedUtf8.encode value)))) := by
  unfold addText
  simp only
  split
  · exact .inl ⟨_, rfl⟩
  next small =>
  split
  · next found =>
    obtain ⟨position, isFirst, rfl⟩ := Option.map_eq_some_iff.1 found
    obtain ⟨inside, isText, -⟩ := Array.findIdx?_eq_some_iff_getElem.1 isFirst
    refine .inr (.inl ⟨position, ?_, rfl⟩)
    rw [Array.getElem?_eq_getElem inside]
    exact congrArg some (by simpa using isText)
  · next missing =>
    have absent : ∀ position : Nat,
        pool.slots[position]? ≠ some (.text (ModifiedUtf8.encode value)) := by
      intro position found
      rw [indexOfText?, Option.map_eq_none_iff, Array.findIdx?_eq_none_iff] at missing
      simpa using missing _ (Array.mem_of_getElem? found)
    obtain ⟨room, pushed⟩ | full := push_cases (.text (ModifiedUtf8.encode value)) pool
    · exact .inr (.inr ⟨absent, Nat.le_of_not_lt small, room, pushed⟩)
    · exact .inl ⟨_, full⟩

/-- Adding a text gives the index of an entry with its bytes. There is at most one more entry than
before, the one of the text. -/
theorem addText_eq_ok {pool after : Pool} {value : String} {index : UInt16}
    (added : addText value pool = (.ok index, after)) :
    Grows pool after ∧
      (∀ {position : Nat} {constant : Constant}, pool.size ≤ position →
        after.slots[position]? = some constant → constant = .text (ModifiedUtf8.encode value)) ∧
      (pool.size ≤ 65535 → after.get index = .ok (.text (ModifiedUtf8.encode value))) := by
  obtain ⟨fault, failed⟩ | ⟨position, found, reused⟩ | ⟨-, short, room, appended⟩ :=
    addText_cases value pool
  · rw [failed] at added
    cases added
  · rw [reused] at added
    cases added
    refine ⟨Grows.refl _, fun beyond found => ?_, fun bounded => ?_⟩
    · simp [getElem?_eq_none_of_size_le beyond] at found
    -- The position of a text that is there already is an index, as the pool is bounded.
    have same : (UInt16.ofNat position).toNat = position := by
      have : position < pool.size := (Array.getElem?_eq_some_iff.1 found).1
      rw [UInt16.toNat_ofNat']
      omega
    rw [get_eq_ok_iff, same]
    exact ⟨found, nofun⟩
  · rw [appended] at added
    cases added
    refine ⟨append_grows rfl short room, fun beyond found => ?_, fun _ => get_append nofun room⟩
    rw [getElem?_append rfl] at found
    split at found
    · exact (Option.some.inj found).symm
    · simp [getElem?_eq_none_of_size_le beyond] at found

theorem redirect_eq_ok_iff {pool after : Pool} {index text : UInt16} {result : Unit} :
    redirect index text pool = (.ok result, after) ↔
      (∃ bytes, pool.get text = .ok (.text bytes)) ∧
        (∃ other, pool.get index = .ok (.string other)) ∧
        after = ⟨pool.slots.set! index.toNat (.string text)⟩ := by
  unfold redirect
  split
  · next bytes isText =>
    split
    · next other isString =>
      constructor
      · rintro ⟨⟩
        exact ⟨⟨bytes, isText⟩, ⟨other, get_eq_ok_iff.2 ⟨isString, nofun⟩⟩, rfl⟩
      · rintro ⟨-, -, rfl⟩
        rfl
    · next notString =>
      constructor
      · rintro ⟨⟩
      · rintro ⟨-, ⟨other, isString⟩, -⟩
        exact absurd (get_eq_ok_iff.1 isString).1 (notString other)
  · next notText =>
    constructor
    · rintro ⟨⟩
    · rintro ⟨⟨bytes, isText⟩, -⟩
      exact absurd isText (notText bytes)

/-- What is not behind the old entries is one of them. -/
theorem Grows.old_of_lt {old new : Pool} (grows : Grows old new) {index : Nat} {constant : Constant}
    (found : new.slots[index]? = some constant) (inside : index < old.size) :
    old.slots[index]? = some constant := by
  have here : old.slots[index]? = some old.slots[index] := Array.getElem?_eq_getElem inside
  rw [here, ← found, grows.kept here]

section

variable {pool after : Pool} {index text : UInt16}

theorem getElem?_redirect (moved : redirect index text pool = (.ok (), after)) (position : Nat) :
    after.slots[position]? =
      if position = index.toNat then some (.string text) else pool.slots[position]? := by
  obtain ⟨-, ⟨other, isString⟩, rfl⟩ := redirect_eq_ok_iff.1 moved
  have inside := (Array.getElem?_eq_some_iff.1 (get_eq_ok_iff.1 isString).1).1
  by_cases here : position = index.toNat
  · simp [here, inside]
  · simp [here, Ne.symm here]

theorem size_redirect (moved : redirect index text pool = (.ok (), after)) :
    after.size = pool.size := by
  obtain ⟨-, -, rfl⟩ := redirect_eq_ok_iff.1 moved
  simp [size]

/-- The redirected string refers to the text. -/
theorem get_redirect (moved : redirect index text pool = (.ok (), after)) :
    after.get index = .ok (.string text) := by
  refine get_eq_ok_iff.2 ⟨?_, nofun⟩
  rw [getElem?_redirect moved, if_pos rfl]

/-- All other entries are as they were. -/
theorem get_redirect_of_ne (moved : redirect index text pool = (.ok (), after)) {other : UInt16}
    (different : other ≠ index) : after.get other = pool.get other := by
  have elsewhere : other.toNat ≠ index.toNat := fun same => different (UInt16.toNat_inj.1 same)
  rw [get, get, getElem?_redirect moved, if_neg elsewhere]

theorem redirect_evolves (moved : redirect index text pool = (.ok (), after)) :
    Evolves pool after := by
  have slots := getElem?_redirect moved
  obtain ⟨⟨bytes, isText⟩, ⟨other, isString⟩, -⟩ := redirect_eq_ok_iff.1 moved
  obtain ⟨here, -⟩ := get_eq_ok_iff.1 isString
  constructor
  case kept =>
    intro position constant found notString
    rw [slots, if_neg, found]
    rintro rfl
    rw [here] at found
    cases found
    cases notString
  case string =>
    intro position value found
    rw [slots]
    split
    · exact ⟨text, rfl⟩
    · exact ⟨value, found⟩
  case target =>
    intro position value target found now
    rw [slots] at now
    split at now
    · -- The redirected entry is a string, so that it is not the text.
      have elsewhere : text ≠ index := by
        rintro rfl
        rw [isString] at isText
        cases isText
      cases now
      exact .inr ⟨bytes, (get_redirect_of_ne moved elsewhere).trans isText⟩
    · rw [found] at now
      cases now
      exact .inl rfl
  case added =>
    intro position constant beyond found
    rw [slots] at found
    split at found
    · cases found
      exact trivial
    · simp [getElem?_eq_none_of_size_le beyond] at found
  case bounded => exact fun small => (size_redirect moved).trans_le small

end

end Pool

end Relabel.ClassFile
