import VisualNovel.Save.Codec
import Mathlib.Data.List.Infix

/-!
# Exact codecs

A codec is exact if reading undoes writing whatever follows, and if what it reads does not
depend on the bytes it leaves. Then it is a prefix code: a value that is cut short cannot be
read, since the rest of its bytes would have been left over. Everything a codec is put
together from keeps this, so a large format is exact field by field.

> `Exact.pair`, `Exact.via`, `Exact.list`, `Exact.table`: what is put together from exact
> codecs is exact.

> `Exact.decode_of_isPrefix`: no value can be read from a part of its bytes.
-/

namespace VisualNovel

namespace Table

variable {α : Type}

/-- Entries with keys of their own are put into a table as they are. -/
theorem foldl_insert_entries (t : Table α) (es : List (String × α))
    (h : ((t.entries ++ es).map Prod.fst).Nodup) :
    (es.foldl (fun t e => t.insert e.1 e.2) t).entries = t.entries ++ es := by
  induction es generalizing t with
  | nil => simp
  | cons e es ih =>
    have fresh : t.contains e.1 = false := by
      rw [List.map_append, List.nodup_append] at h
      rw [contains, List.any_eq_false]
      intro old member
      have apart := h.2.2 old.1 (List.mem_map_of_mem member) e.1 (by simp)
      simpa using apart
    have placed : (t.insert e.1 e.2).entries = t.entries ++ [e] := by
      unfold insert
      rw [dif_neg (by simp [fresh])]
    rw [List.foldl_cons, ih _ (by rw [placed]; simpa using h), placed]
    simp

/-- A table is put together again from its entries, in their order. -/
theorem ofList_entries (t : Table α) : ofList t.entries = t := by
  apply ext
  have nodup : ((empty.entries ++ t.entries).map Prod.fst).Nodup := t.nodup_keys
  exact foldl_insert_entries empty t.entries nodup

end Table

namespace Codec

variable {α β : Type} {P : α → Prop} {Q : β → Prop} {a : Codec α} {b : Codec β}

/-- Reading undoes writing on the values with a property, and reads no further than it has to. -/
structure Exact (c : Codec α) (P : α → Prop) : Prop where
  decode_encode : ∀ {x}, P x → ∀ rest, c.decode (c.encode x ++ rest) = some (x, rest)
  decode_append : ∀ {bytes x rest}, c.decode bytes = some (x, rest) →
    ∀ more, c.decode (bytes ++ more) = some (x, rest ++ more)

/-- Nothing can be read from a part of the bytes of a value. -/
theorem Exact.decode_of_isPrefix (h : a.Exact P) {x : α} (hx : P x) {cut : List UInt8}
    (isPrefix : cut <+: a.encode x) (proper : cut ≠ a.encode x) : a.decode cut = none := by
  rw [Option.eq_none_iff_forall_ne_some]
  rintro ⟨y, rest⟩ read
  obtain ⟨missing, whole⟩ := isPrefix
  -- The bytes that are missing would be left over from those of the value.
  have short := h.decode_append read missing
  have full := h.decode_encode hx []
  rw [List.append_nil, ← whole, short] at full
  have none : rest ++ missing = [] := congrArg Prod.snd (Option.some.inj full)
  rw [(List.append_eq_nil_iff.mp none).2, List.append_nil] at whole
  exact proper whole

/-! ## Parts -/

/-- What is exact on more values is exact on fewer. -/
theorem Exact.mono {P' : α → Prop} (h : a.Exact P) (weaker : ∀ x, P' x → P x) : a.Exact P' where
  decode_encode := fun hx => h.decode_encode (weaker _ hx)
  decode_append := h.decode_append

/-- Two exact codecs one after the other are exact. -/
theorem Exact.pair (ha : a.Exact P) (hb : b.Exact Q) :
    (a.pair b).Exact fun p => P p.1 ∧ Q p.2 where
  decode_encode := fun {p} hp rest => by
    show decodePair a b ((a.encode p.1 ++ b.encode p.2) ++ rest) = _
    unfold decodePair
    rw [List.append_assoc, ha.decode_encode hp.1]
    dsimp only [bind, Option.bind]
    rw [hb.decode_encode hp.2]
    rfl
  decode_append := fun {bytes p rest} read more => by
    obtain ⟨⟨x, left⟩, first, read⟩ := Option.bind_eq_some_iff.mp read
    obtain ⟨⟨y, right⟩, second, read⟩ := Option.bind_eq_some_iff.mp read
    cases Option.some.inj read
    show decodePair a b (bytes ++ more) = _
    unfold decodePair
    rw [ha.decode_append first]
    dsimp only [bind, Option.bind]
    rw [hb.decode_append second]
    rfl

/-- Only some of the values of a codec may stand for others. -/
theorem Exact.viaSome (h : a.Exact P) {toValue : α → Option β} {ofValue : β → α}
    (back : ∀ v, toValue (ofValue v) = some v) :
    (a.viaSome toValue ofValue).Exact fun v => P (ofValue v) where
  decode_encode := fun {v} hv rest => by
    show (a.decode (a.encode (ofValue v) ++ rest)).bind _ = _
    rw [h.decode_encode hv, Option.bind_some]
    dsimp only
    rw [back]
    rfl
  decode_append := fun {bytes v rest} read more => by
    obtain ⟨⟨x, left⟩, first, read⟩ := Option.bind_eq_some_iff.mp read
    obtain ⟨w, value, same⟩ := Option.map_eq_some_iff.mp read
    cases same
    show (a.decode (bytes ++ more)).bind _ = _
    rw [h.decode_append first, Option.bind_some]
    dsimp only
    rw [value]
    rfl

/-- A value that stands for another without loss is stored exactly with it. -/
theorem Exact.via (h : a.Exact P) {toValue : α → β} {ofValue : β → α}
    (back : ∀ v, toValue (ofValue v) = v) :
    (a.via toValue ofValue).Exact fun v => P (ofValue v) where
  decode_encode := fun {v} hv rest => by
    show (a.decode (a.encode (ofValue v) ++ rest)).map _ = _
    rw [h.decode_encode hv, Option.map_some]
    dsimp only
    rw [back]
  decode_append := fun {bytes v rest} read more => by
    obtain ⟨⟨x, left⟩, first, same⟩ := Option.map_eq_some_iff.mp read
    cases same
    show (a.decode (bytes ++ more)).map _ = _
    rw [h.decode_append first, Option.map_some]

/-! ## Numbers -/

/-- A byte is stored as it is. -/
theorem byte_exact : byte.Exact fun _ => True where
  decode_encode := fun _ _ => rfl
  decode_append := fun {bytes _ _} read _ => by
    cases bytes with
    | nil => contradiction
    | cons b bytes =>
      cases Option.some.inj read
      rfl

theorem twoPow_mul_succ (count : Nat) : twoPow (8 * (count + 1)) = 256 * twoPow (8 * count) := by
  simp only [Nat.mul_succ, twoPow_succ]
  omega

/-- A number that fits in so many bytes is read back from them. -/
theorem readLittleEndian_littleEndian (count : Nat) {n : Nat} (h : n < twoPow (8 * count))
    (rest : List UInt8) :
    readLittleEndian count (littleEndian count n ++ rest) = some (n, rest) := by
  induction count generalizing n with
  | zero =>
    have zero : n = 0 := Nat.lt_one_iff.mp h
    rw [zero]
    rfl
  | succ count ih =>
    rw [twoPow_mul_succ] at h
    have high : n / 256 < twoPow (8 * count) := Nat.div_lt_of_lt_mul h
    have low : (UInt8.ofNat n).toNat = n % 256 := rfl
    rw [littleEndian, List.cons_append, readLittleEndian, ih high, Option.map_some]
    dsimp only
    rw [low, Nat.mod_add_div]

/-- Of a number in little-endian order as many bytes are read as it has. -/
theorem readLittleEndian_append {count n : Nat} {bytes rest : List UInt8}
    (h : readLittleEndian count bytes = some (n, rest)) (more : List UInt8) :
    readLittleEndian count (bytes ++ more) = some (n, rest ++ more) := by
  induction count generalizing bytes n with
  | zero =>
    cases Option.some.inj h
    rfl
  | succ count ih =>
    cases bytes with
    | nil => contradiction
    | cons b bytes =>
      obtain ⟨⟨m, left⟩, read, same⟩ := Option.map_eq_some_iff.mp h
      cases same
      rw [List.cons_append, readLittleEndian, ih read, Option.map_some]

/-- A number of a fixed number of bytes is exact up to the bound of that many. -/
theorem fixed_exact (count : Nat) : (fixed count).Exact (· < twoPow (8 * count)) where
  decode_encode := fun h rest => readLittleEndian_littleEndian count h rest
  decode_append := readLittleEndian_append

/-- A number that fits the width is read back, behind whatever marker it was written. -/
theorem decodeNat_encodeNat {width n : Nat} (fits : n < twoPow 32 ∨ width = 8 ∧ n < twoPow 64)
    (rest : List UInt8) : decodeNat width (encodeNat n ++ rest) = some (n, rest) := by
  unfold encodeNat
  split
  next small =>
    have same : (UInt8.ofNat n).toNat = n := Nat.mod_eq_of_lt (by omega)
    have first : UInt8.ofNat n < 251 := by
      rw [UInt8.lt_iff_toNat_lt, same]
      exact small
    rw [List.singleton_append, decodeNat, if_pos first, same]
  next =>
    split
    next two => exact readLittleEndian_littleEndian 2 two rest
    next =>
      split
      next four => exact readLittleEndian_littleEndian 4 four rest
      next large =>
        obtain ⟨rfl, word⟩ := fits.resolve_left large
        exact readLittleEndian_littleEndian 8 word rest

/-- The first byte tells how many more are read, so bytes that follow are not. -/
theorem decodeNat_append {width n : Nat} {bytes rest : List UInt8}
    (h : decodeNat width bytes = some (n, rest)) (more : List UInt8) :
    decodeNat width (bytes ++ more) = some (n, rest ++ more) := by
  cases bytes with
  | nil => contradiction
  | cons b bytes =>
    rw [List.cons_append]
    unfold decodeNat at h ⊢
    dsimp only at h ⊢
    split
    next first =>
      rw [if_pos first] at h
      cases Option.some.inj h
      rfl
    next first =>
      rw [if_neg first] at h
      split
      next two =>
        rw [if_pos two] at h
        exact readLittleEndian_append h more
      next two =>
        rw [if_neg two] at h
        split
        next four =>
          rw [if_pos four] at h
          exact readLittleEndian_append h more
        next four =>
          rw [if_neg four] at h
          split
          next eight =>
            rw [if_pos eight] at h
            exact readLittleEndian_append h more
          next eight =>
            rw [if_neg eight] at h
            contradiction

/-- A half word takes a marker and four bytes at most, and is exact below its bound. -/
theorem nat32_exact : nat32.Exact (· < twoPow 32) where
  decode_encode := fun h rest => decodeNat_encodeNat (.inl h) rest
  decode_append := decodeNat_append

/-- A word may take any of the markers, and is exact below its bound. -/
theorem nat64_exact : nat64.Exact (· < twoPow 64) where
  decode_encode := fun h rest => decodeNat_encodeNat (.inr ⟨rfl, h⟩) rest
  decode_append := decodeNat_append

/-- The sign comes back from the lowest bit. -/
theorem unzigzag_zigzag (i : Int) : unzigzag (zigzag i) = i := by
  unfold unzigzag zigzag
  split <;> split <;> omega

/-- A signed half word still is a half word with its sign in the lowest bit. -/
theorem zigzag_lt (i : Int32) : zigzag i.toInt < twoPow 32 := by
  have above := i.toInt_lt
  have below := i.le_toInt
  show zigzag i.toInt < 4294967296
  unfold zigzag
  split <;> omega

/-- A signed half word is exact without a condition. -/
theorem int32_exact : int32.Exact fun _ => True :=
  (nat32_exact.via fun i => by rw [unzigzag_zigzag, Int32.ofInt_toInt]).mono fun i _ => zigzag_lt i

theorem bool_exact : bool.Exact fun _ => True :=
  byte_exact.viaSome fun b => by cases b <;> rfl

/-- A number of single precision is exact down to its bits. -/
theorem single_exact : single.Exact fun _ => True :=
  ((fixed_exact 4).via Fp.ofBits_toBits).mono fun x _ => x.toBits_lt

/-! ## Lists, options, texts and tables -/

/-- A list that is short enough to be counted in a word, all its elements with a property. -/
def Counted (P : α → Prop) (xs : List α) : Prop := xs.length < twoPow 64 ∧ ∀ x ∈ xs, P x

/-- Elements that are written one after the other are read one after the other. -/
theorem readMany_encode (h : a.Exact P) {xs : List α} (hxs : ∀ x ∈ xs, P x) (rest : List UInt8) :
    readMany a xs.length (xs.flatMap a.encode ++ rest) = some (xs, rest) := by
  induction xs with
  | nil => rfl
  | cons x xs ih =>
    rw [List.length_cons, readMany, List.flatMap_cons, List.append_assoc,
      h.decode_encode (hxs x List.mem_cons_self)]
    dsimp only [bind, Option.bind]
    rw [ih fun y hy => hxs y (List.mem_cons_of_mem x hy)]
    rfl

/-- As many elements are read as are asked for, and no bytes behind them. -/
theorem readMany_append (h : a.Exact P) {count : Nat} {bytes rest : List UInt8} {xs : List α}
    (read : readMany a count bytes = some (xs, rest)) (more : List UInt8) :
    readMany a count (bytes ++ more) = some (xs, rest ++ more) := by
  induction count generalizing bytes xs with
  | zero =>
    cases Option.some.inj read
    rfl
  | succ count ih =>
    obtain ⟨⟨x, left⟩, first, read⟩ := Option.bind_eq_some_iff.mp read
    obtain ⟨⟨ys, right⟩, others, read⟩ := Option.bind_eq_some_iff.mp read
    cases Option.some.inj read
    rw [readMany, h.decode_append first]
    dsimp only [bind, Option.bind]
    rw [ih others]
    rfl

/-- A list is exact if its elements are, and if they can be counted. -/
theorem Exact.list (h : a.Exact P) : (list a).Exact (Counted P) where
  decode_encode := fun {xs} hxs rest => by
    show (nat64.decode ((nat64.encode xs.length ++ xs.flatMap a.encode) ++ rest)).bind _ = _
    rw [List.append_assoc, nat64_exact.decode_encode hxs.1, Option.bind_some]
    exact readMany_encode h hxs.2 rest
  decode_append := fun {bytes xs rest} read more => by
    obtain ⟨⟨count, left⟩, first, read⟩ := Option.bind_eq_some_iff.mp read
    show (nat64.decode (bytes ++ more)).bind _ = _
    rw [nat64_exact.decode_append first, Option.bind_some]
    exact readMany_append h read more

/-- An option is exact if what it may hold is. -/
theorem Exact.option (h : a.Exact P) : (option a).Exact fun o => ∀ x ∈ o, P x where
  decode_encode := fun {o} ho rest => by
    cases o with
    | none => rfl
    | some x =>
      show (a.decode (a.encode x ++ rest)).map _ = _
      rw [h.decode_encode (ho x rfl), Option.map_some]
  decode_append := fun {bytes o rest} read more => by
    cases bytes with
    | nil => contradiction
    | cons b bytes =>
      unfold Codec.option at read ⊢
      dsimp only [List.cons_append] at read ⊢
      split at read
      next zero =>
        cases Option.some.inj read
        rw [if_pos zero]
      next zero =>
        rw [if_neg zero]
        split at read
        next one =>
          obtain ⟨⟨x, left⟩, first, same⟩ := Option.map_eq_some_iff.mp read
          cases same
          rw [if_pos one, h.decode_append first, Option.map_some]
        next => contradiction

/-- As many bytes are taken as are asked for, and those behind them are left. -/
theorem readBytes_append {count : Nat} {bytes taken rest : List UInt8}
    (h : readBytes count bytes = some (taken, rest)) (more : List UInt8) :
    readBytes count (bytes ++ more) = some (taken, rest ++ more) := by
  unfold readBytes at h ⊢
  dsimp only at h ⊢
  split at h
  next enough =>
    cases Option.some.inj h
    have within : count ≤ bytes.length := by
      rw [List.length_take] at enough
      omega
    rw [List.take_append_of_le_length within, List.drop_append_of_le_length within,
      if_pos enough]
  next => contradiction

/-- The bytes of a text can be counted in a word. -/
def CountedText (s : String) : Prop := (Text.toBytes s).length < twoPow 64

instance (s : String) : Decidable (CountedText s) := inferInstanceAs (Decidable (_ < _))

/-- A text is exact if its bytes can be counted. -/
theorem string_exact : string.Exact CountedText where
  decode_encode := fun {s} hs rest => by
    have taken : readBytes (Text.toBytes s).length (Text.toBytes s ++ rest) =
        some (Text.toBytes s, rest) := by
      unfold readBytes
      rw [List.take_left, List.drop_left]
      exact if_pos rfl
    show (nat64.decode ((nat64.encode _ ++ Text.toBytes s) ++ rest)).bind _ = _
    rw [List.append_assoc, nat64_exact.decode_encode hs, Option.bind_some]
    dsimp only [bind]
    rw [taken, Option.bind_some]
    dsimp only
    rw [Text.ofBytes?_toBytes]
    rfl
  decode_append := fun {bytes s rest} read more => by
    obtain ⟨⟨count, left⟩, first, read⟩ := Option.bind_eq_some_iff.mp read
    obtain ⟨⟨taken, right⟩, second, read⟩ := Option.bind_eq_some_iff.mp read
    obtain ⟨t, text, same⟩ := Option.map_eq_some_iff.mp read
    cases same
    show (nat64.decode (bytes ++ more)).bind _ = _
    rw [nat64_exact.decode_append first, Option.bind_some]
    dsimp only [bind]
    rw [readBytes_append second, Option.bind_some]
    dsimp only
    rw [text]
    rfl

/-- A table is written in the order of its entries, whatever that is, and read back so. -/
theorem Exact.table (h : a.Exact P) :
    (table a).Exact fun t => Counted (fun e => CountedText e.1 ∧ P e.2) t.entries :=
  (string_exact.pair h).list.via Table.ofList_entries

end Codec

end VisualNovel
