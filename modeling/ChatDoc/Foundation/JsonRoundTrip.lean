import ChatDoc.Foundation.Json

/-!
# Reading back what was written

`JSON.parse` of the text of `json.dumps` is the value, its strings in UTF-16 and
its numbers as doubles.
-/

namespace Foundation

/-!
# Strings
-/

theorem hexDigit_digitChar {n : Nat} (h : n < 16) : hexDigit (Nat.digitChar n) = some n := by
  interval_cases n <;> rfl

theorem hexUnit_hexDigits {n : Nat} (h : n < 65536) :
    hexUnit (Nat.digitChar (n / 4096 % 16)) (Nat.digitChar (n / 256 % 16))
      (Nat.digitChar (n / 16 % 16)) (Nat.digitChar (n % 16)) = some (UInt16.ofNat n) := by
  have hmod (k : Nat) : k % 16 < 16 := Nat.mod_lt _ (by decide)
  unfold hexUnit
  rw [hexDigit_digitChar (hmod _), hexDigit_digitChar (hmod _),
    hexDigit_digitChar (hmod _), hexDigit_digitChar (hmod _)]
  dsimp only [Option.bind_eq_bind, Option.bind_some]
  congr 2
  omega

theorem readString_unicodeEscape (u : CodeUnit) (rest : List Char) :
    readString (unicodeEscape u ++ rest) = unitsBefore [u] (readString rest) := by
  have hread : readString (unicodeEscape u ++ rest) =
      (hexUnit (Nat.digitChar (u.toNat / 4096 % 16)) (Nat.digitChar (u.toNat / 256 % 16))
        (Nat.digitChar (u.toNat / 16 % 16)) (Nat.digitChar (u.toNat % 16))).bind
        fun u => unitsBefore [u] (readString rest) := rfl
  rw [hread, hexUnit_hexDigits u.toNat_lt, UInt16.ofNat_toNat, Option.bind_some]

theorem unitsBefore_append (us vs : List CodeUnit)
    (out : Option (List CodeUnit × List Char)) :
    unitsBefore us (unitsBefore vs out) = unitsBefore (us ++ vs) out := by
  cases out with
  | none => rfl
  | some out =>
      unfold unitsBefore
      rw [Option.map_some, Option.map_some, Option.map_some, List.append_assoc]

theorem unitsBefore_nil (out : Option (List CodeUnit × List Char)) :
    unitsBefore [] out = out := by
  cases out <;> rfl

theorem readString_units (us : List CodeUnit) (rest : List Char) :
    readString (us.flatMap unicodeEscape ++ rest) = unitsBefore us (readString rest) := by
  induction us with
  | nil => exact (unitsBefore_nil _).symm
  | cons u us ih =>
      rw [List.flatMap_cons, List.append_assoc, readString_unicodeEscape, ih,
        unitsBefore_append]
      rfl

theorem readString_plain {c : Char} (rest : List Char) (hquote : c ≠ '"')
    (hslash : c ≠ '\\') (hprintable : 0x20 ≤ c.toNat) :
    readString (c :: rest) = unitsBefore (utf16 (codePoint c)) (readString rest) := by
  rw [readString]
  · rw [if_neg]
    intro hcases
    rcases hcases with hlow | hback
    · omega
    · exact hslash hback
  · intro heq
    exact hquote heq
  · intro a b c d rest' heq
    exact absurd heq hslash
  · intro c' rest' heq
    exact absurd heq hslash

theorem codePoint_ofNat {c : CodePoint} (h : c.val ≤ 0x7E) :
    (Char.ofNat c.val).toNat = c.val ∧ codePoint (Char.ofNat c.val) = c := by
  have hvalid : c.val.isValidChar := .inl (by omega)
  have hnat : (Char.ofNat c.val).toNat = c.val := by
    unfold Char.ofNat
    rw [dif_pos hvalid]
    rfl
  exact ⟨hnat, Fin.ext hnat⟩

theorem readString_escape (c : CodePoint) (rest : List Char) :
    readString (escape c ++ rest) = unitsBefore (utf16 c) (readString rest) := by
  unfold escape
  split_ifs with hquote hslash hnewline hreturn htab hfeed hback hprintable
  · rw [hquote]
    rfl
  · rw [hslash]
    rfl
  · rw [hnewline]
    rfl
  · rw [hreturn]
    rfl
  · rw [htab]
    rfl
  · rw [hfeed]
    rfl
  · rw [hback]
    rfl
  · rcases codePoint_ofNat hprintable.2 with ⟨hnat, hcode⟩
    have hplain := readString_plain (c := Char.ofNat c.val) rest
    rw [hcode, hnat] at hplain
    apply hplain
    · intro heq
      rw [heq] at hcode
      exact hquote hcode.symm
    · intro heq
      rw [heq] at hcode
      exact hslash hcode.symm
    · exact hprintable.1
  · exact readString_units (utf16 c) rest

theorem readString_text (s : List CodePoint) (rest : List Char) :
    readString (s.flatMap escape ++ '"' :: rest) = some (utf16Text s, rest) := by
  induction s with
  | nil => rfl
  | cons c s ih =>
      rw [List.flatMap_cons, List.append_assoc, readString_escape, ih]
      rfl

/-!
# Numbers
-/

theorem readNumber_of_literal {l : Literal} {rest : List Char} (hproper : l.Proper)
    (hrest : Delimits rest) :
    readNumber (l.text ++ rest) = some (.number l.toJs, rest) := by
  unfold readNumber
  rw [readLiteral_text hproper hrest]
  rfl

theorem readNumber_numberText {x : PyNumber} {rest : List Char} (h : x.Finite)
    (hrest : Delimits rest) :
    readNumber (numberText x ++ rest) = some (.number x.read, rest) := by
  cases x with
  | int n =>
      have hread := readNumber_of_literal (proper_intLiteral n) hrest
      rw [text_intLiteral] at hread
      exact hread
  | float negative q =>
      rcases floatLiteral_spec negative h with ⟨hnegative, hproper, hnearest⟩
      have hread := readNumber_of_literal hproper hrest
      have hvalue : (floatLiteral negative q).toJs = .finite negative q := by
        unfold Literal.toJs
        rw [hnearest, hnegative]
      rw [hvalue] at hread
      exact hread
  | nan => exact h.elim
  | infinity negative => exact h.elim

/-!
# Values
-/

def ReadsBack (v : PyValue) : Prop :=
  forall fuel rest, 2 * (dumps v).length ≤ fuel -> Delimits rest ->
    readValue fuel (dumps v ++ rest) = some (v.read, rest)

theorem head_literal {l : Literal} (h : l.Proper) :
    exists c text, l.text = c :: text ∧ (c = '-' ∨ c.isDigit = true) := by
  rcases l with ⟨negative, whole, frac, exponent⟩
  cases negative with
  | true => exact ⟨'-', _, rfl, .inl rfl⟩
  | false =>
      cases whole with
      | nil => exact absurd rfl h.nonempty
      | cons d ds => exact ⟨d, _, rfl, .inr (h.whole d List.mem_cons_self)⟩

theorem head_numberText {x : PyNumber} (h : x.Finite) :
    exists c text, numberText x = c :: text ∧ (c = '-' ∨ c.isDigit = true) := by
  cases x with
  | int n =>
      have hhead := head_literal (proper_intLiteral n)
      rw [text_intLiteral] at hhead
      exact hhead
  | float negative q => exact head_literal (floatLiteral_spec negative h).2.1
  | nan => exact h.elim
  | infinity negative => exact h.elim

theorem white_of_number {c : Char} (h : c = '-' ∨ c.isDigit = true) :
    white c = false ∧ c ≠ ']' := by
  rcases h with rfl | hdigit
  · exact ⟨rfl, by decide⟩
  · constructor
    · unfold white
      rw [decide_eq_false_iff_not]
      intro hcases
      rcases hcases with rfl | rfl | rfl | rfl <;> cases hdigit
    · rintro rfl
      cases hdigit

def Begins (text : List Char) : Prop :=
  exists c rest, text = c :: rest ∧ white c = false ∧ c ≠ ']'

theorem begins_append {text : List Char} (rest : List Char) (h : Begins text) :
    Begins (text ++ rest) := by
  rcases h with ⟨c, tail, rfl, hwhite, hbracket⟩
  exact ⟨c, tail ++ rest, rfl, hwhite, hbracket⟩

theorem begins_dumps {v : PyValue} (h : v.Readable) : Begins (dumps v) := by
  cases v with
  | null => exact ⟨'n', _, rfl, rfl, by decide⟩
  | bool b => cases b <;> exact ⟨_, _, rfl, rfl, by decide⟩
  | number x =>
      rcases head_numberText h with ⟨c, text, htext, hc⟩
      rcases white_of_number hc with ⟨hwhite, hbracket⟩
      exact ⟨c, text, htext, hwhite, hbracket⟩
  | string s => exact ⟨'"', _, rfl, rfl, by decide⟩
  | array items => exact ⟨'[', _, rfl, rfl, by decide⟩
  | object members => exact ⟨'{', _, rfl, rfl, by decide⟩

theorem begins_dumpsItems {v : PyValue} {rest : List PyValue} (h : v.Readable) :
    Begins (dumpsItems (v :: rest)) := by
  cases rest with
  | nil => exact begins_dumps h
  | cons w rest => exact begins_append _ (begins_dumps h)

theorem skipWhite_of_begins {text : List Char} (h : Begins text) :
    skipWhite text = text := by
  rcases h with ⟨c, rest, rfl, hwhite, _⟩
  unfold skipWhite
  rw [List.dropWhile_cons_of_neg (by rw [hwhite]; decide)]

theorem readValue_space (fuel : Nat) (text : List Char) :
    readValue fuel (' ' :: text) = readValue fuel text := by
  cases fuel <;> rfl

theorem readItems_space (fuel : Nat) (text : List Char) :
    readItems fuel (' ' :: text) = readItems fuel text := by
  cases fuel with
  | zero => rfl
  | succ fuel => rw [readItems, readItems, readValue_space]

theorem readMembers_space (fuel : Nat) (seen : List (List CodeUnit × JsValue))
    (text : List Char) :
    readMembers fuel seen (' ' :: text) = readMembers fuel seen text := by
  cases fuel <;> rfl

theorem delimits_cons {c : Char} {rest : List Char} (hc : c = ',' ∨ c = ']' ∨ c = '}') :
    Delimits (c :: rest) := by
  intro d hd
  cases hd
  rcases hc with rfl | rfl | rfl <;> decide

theorem readValue_number {x : PyNumber} (h : x.Finite) : ReadsBack (.number x) := by
  intro fuel rest hfuel hrest
  rcases head_numberText h with ⟨c, text, htext, hc⟩
  have hread := readNumber_numberText h hrest
  have hdumps : dumps (.number x) = numberText x := rfl
  rw [hdumps] at hfuel ⊢
  rw [htext] at hfuel hread ⊢
  have hother (d : Char) (hd : d ≠ '-' ∧ d.isDigit = false) : c ≠ d := by
    intro heq
    rcases hc with hminus | hdigit
    · exact hd.1 (heq ▸ hminus)
    · rw [heq, hd.2] at hdigit
      cases hdigit
  have hkeyword : readKeyword (c :: text ++ rest) = none := by
    unfold readKeyword
    split
    next heq => exact absurd (List.head_eq_of_cons_eq heq) (hother 'n' (by decide))
    next heq => exact absurd (List.head_eq_of_cons_eq heq) (hother 't' (by decide))
    next heq => exact absurd (List.head_eq_of_cons_eq heq) (hother 'f' (by decide))
    next => rfl
  have hskip : skipWhite (c :: text ++ rest) = c :: text ++ rest :=
    skipWhite_of_begins ⟨c, text ++ rest, rfl, white_of_number hc⟩
  cases fuel with
  | zero => simp at hfuel
  | succ fuel =>
      rw [readValue, hskip]
      split
      next heq => exact absurd (List.head_eq_of_cons_eq heq) (hother '"' (by decide))
      next heq => exact absurd (List.head_eq_of_cons_eq heq) (hother '[' (by decide))
      next heq => exact absurd (List.head_eq_of_cons_eq heq) (hother '{' (by decide))
      next =>
        rw [hkeyword, Option.none_or, hread]
        rfl

theorem readItems_last {fuel : Nat} {text rest : List Char} {v : JsValue}
    (h : readValue fuel text = some (v, ']' :: rest)) :
    readItems (fuel + 1) text = some ([v], rest) := by
  rw [readItems, h]
  rfl

theorem readItems_more {fuel : Nat} {text rest : List Char} {v : JsValue}
    (h : readValue fuel text = some (v, ',' :: rest)) :
    readItems (fuel + 1) text =
      (readItems fuel rest).map fun more => (v :: more.1, more.2) := by
  rw [readItems, h]
  rfl

theorem readItems_dumps {v : PyValue} {items : List PyValue}
    (hitems : forall w, w ∈ v :: items -> w.Readable -> ReadsBack w)
    (h : PyValue.EachItem PyNumber.Finite (v :: items)) {fuel : Nat} (rest : List Char)
    (hfuel : 2 * (dumpsItems (v :: items)).length < fuel) :
    readItems fuel (dumpsItems (v :: items) ++ ']' :: rest) =
      some (Json.mapItems utf16Text PyNumber.read (v :: items), rest) := by
  induction items generalizing v fuel with
  | nil =>
      cases fuel with
      | zero => exact absurd hfuel (Nat.not_lt_zero _)
      | succ fuel =>
          have hread := hitems v List.mem_cons_self h.1 fuel (']' :: rest)
            (Nat.lt_succ_iff.mp hfuel) (delimits_cons (.inr (.inl rfl)))
          exact readItems_last hread
  | cons w items ih =>
      cases fuel with
      | zero => exact absurd hfuel (Nat.not_lt_zero _)
      | succ fuel =>
          have htext : dumpsItems (v :: w :: items) =
              dumps v ++ ',' :: ' ' :: dumpsItems (w :: items) := rfl
          rw [htext, List.length_append, List.length_cons, List.length_cons] at hfuel
          have hread := hitems v List.mem_cons_self h.1 fuel
            (',' :: ' ' :: (dumpsItems (w :: items) ++ ']' :: rest)) (by omega)
            (delimits_cons (.inl rfl))
          have hfewer : 2 * (dumpsItems (w :: items)).length < fuel := by omega
          have hmore := ih (fun x hx => hitems x (List.mem_cons_of_mem _ hx)) h.2 hfewer
          rw [htext, List.append_assoc, List.cons_append, List.cons_append,
            readItems_more hread, readItems_space, hmore]
          rfl

theorem readMembers_last {fuel : Nat} {seen : List (List CodeUnit × JsValue)}
    {text after rest : List Char} {key : List CodeUnit} {v : JsValue}
    (hkey : readString text = some (key, ':' :: after))
    (h : readValue fuel after = some (v, '}' :: rest)) :
    readMembers (fuel + 1) seen ('"' :: text) = some (setProperty key v seen, rest) := by
  have hskip : skipWhite ('"' :: text) = '"' :: text := rfl
  have hcolon : skipWhite (':' :: after) = ':' :: after := rfl
  rw [readMembers, hskip]
  simp only [hkey, Option.bind_some, hcolon, h]
  rfl

theorem readMembers_more {fuel : Nat} {seen : List (List CodeUnit × JsValue)}
    {text after rest : List Char} {key : List CodeUnit} {v : JsValue}
    (hkey : readString text = some (key, ':' :: after))
    (h : readValue fuel after = some (v, ',' :: rest)) :
    readMembers (fuel + 1) seen ('"' :: text) =
      readMembers fuel (setProperty key v seen) rest := by
  have hskip : skipWhite ('"' :: text) = '"' :: text := rfl
  have hcolon : skipWhite (':' :: after) = ':' :: after := rfl
  rw [readMembers, hskip]
  simp only [hkey, Option.bind_some, hcolon, h]
  rfl

theorem setProperty_new {key : List CodeUnit} {seen : List (List CodeUnit × JsValue)}
    (v : JsValue) (h : key ∉ seen.map Prod.fst) :
    setProperty key v seen = seen ++ [(key, v)] := by
  induction seen with
  | nil => rfl
  | cons m seen ih =>
      rw [List.map_cons, List.mem_cons, not_or] at h
      unfold setProperty
      rw [if_neg (Ne.symm h.1), ih h.2, List.cons_append]

theorem key_not_seen {key : List CodePoint} {v : PyValue}
    {members : List (List CodePoint × PyValue)} {seen : List (List CodeUnit × JsValue)}
    (hkeys : (seen.map Prod.fst ++
      ((key, v) :: members).map fun n => utf16Text n.1).Nodup) :
    utf16Text key ∉ seen.map Prod.fst := by
  intro hmem
  rw [List.nodup_append] at hkeys
  exact hkeys.2.2 _ hmem _ List.mem_cons_self rfl

theorem readMembers_dumps {key : List CodePoint} {v : PyValue}
    {members : List (List CodePoint × PyValue)}
    (hmembers : forall n, n ∈ (key, v) :: members -> n.2.Readable -> ReadsBack n.2)
    (h : PyValue.EachMember PyNumber.Finite ((key, v) :: members)) {fuel : Nat}
    {seen : List (List CodeUnit × JsValue)} (rest : List Char)
    (hkeys : (seen.map Prod.fst ++
      ((key, v) :: members).map fun n => utf16Text n.1).Nodup)
    (hfuel : 2 * (dumpsMembers ((key, v) :: members)).length < fuel) :
    readMembers fuel seen (dumpsMembers ((key, v) :: members) ++ '}' :: rest) =
      some (seen ++ Json.mapMembers utf16Text PyNumber.read ((key, v) :: members),
        rest) := by
  induction members generalizing key v fuel seen with
  | nil =>
      cases fuel with
      | zero => exact absurd hfuel (Nat.not_lt_zero _)
      | succ fuel =>
          have hv : ReadsBack v := hmembers (key, v) List.mem_cons_self h.1
          have hnew := key_not_seen hkeys
          have htext : dumpsMembers [(key, v)] ++ '}' :: rest =
              '"' :: (key.flatMap escape ++ '"' :: ':' :: ' ' ::
                (dumps v ++ '}' :: rest)) := by
            simp [dumpsMembers, stringText]
          have hlength : (dumps v).length ≤ (dumpsMembers [(key, v)]).length := by
            simp only [dumpsMembers, List.length_append, List.length_cons]
            omega
          have hread := hv fuel ('}' :: rest) (by omega) (delimits_cons (.inr (.inr rfl)))
          rw [← readValue_space] at hread
          rw [htext, readMembers_last (readString_text key _) hread,
            setProperty_new _ hnew]
          rfl
  | cons n members ih =>
      rcases n with ⟨key', v'⟩
      cases fuel with
      | zero => exact absurd hfuel (Nat.not_lt_zero _)
      | succ fuel =>
          have hv : ReadsBack v := hmembers (key, v) List.mem_cons_self h.1
          have hnew := key_not_seen hkeys
          have htext : dumpsMembers ((key, v) :: (key', v') :: members) ++ '}' :: rest =
              '"' :: (key.flatMap escape ++ '"' :: ':' :: ' ' :: (dumps v ++ ',' :: ' ' ::
                (dumpsMembers ((key', v') :: members) ++ '}' :: rest))) := by
            simp [dumpsMembers, stringText]
          have hlength : (dumpsMembers ((key, v) :: (key', v') :: members)).length =
              (stringText key).length + (dumps v).length +
                (dumpsMembers ((key', v') :: members)).length + 4 := by
            have hform : dumpsMembers ((key, v) :: (key', v') :: members) =
                stringText key ++ ':' :: ' ' :: (dumps v ++ ',' :: ' ' ::
                  dumpsMembers ((key', v') :: members)) := rfl
            rw [hform]
            simp only [List.length_append, List.length_cons]
            omega
          have hread := hv fuel
            (',' :: ' ' :: (dumpsMembers ((key', v') :: members) ++ '}' :: rest))
            (by omega) (delimits_cons (.inl rfl))
          rw [← readValue_space] at hread
          have hkeys' : ((seen ++ [(utf16Text key, v.read)]).map Prod.fst ++
              ((key', v') :: members).map fun n => utf16Text n.1).Nodup := by
            rw [List.map_append, List.append_assoc]
            exact hkeys
          have hfewer : 2 * (dumpsMembers ((key', v') :: members)).length < fuel := by
            omega
          have hmore := ih (fun n hn => hmembers n (List.mem_cons_of_mem _ hn)) h.2
            hkeys' hfewer
          rw [htext, readMembers_more (readString_text key _) hread,
            setProperty_new _ hnew, readMembers_space, hmore, List.append_assoc]
          rfl

theorem readValue_array {fuel : Nat} {text rest : List Char} {items : List JsValue}
    (hbegins : Begins text) (h : readItems fuel text = some (items, rest)) :
    readValue (fuel + 1) ('[' :: text) = some (.array items, rest) := by
  have hskip : skipWhite ('[' :: text) = '[' :: text := rfl
  rw [readValue, hskip]
  simp only [skipWhite_of_begins hbegins]
  rcases hbegins with ⟨c, tail, rfl, _, hbracket⟩
  split
  next heq => exact absurd (List.head_eq_of_cons_eq heq) hbracket
  next =>
    rw [h]
    rfl

theorem readValue_object {fuel : Nat} {text rest : List Char}
    {members : List (List CodeUnit × JsValue)}
    (h : readMembers fuel [] ('"' :: text) = some (members, rest)) :
    readValue (fuel + 1) ('{' :: '"' :: text) = some (.object members, rest) := by
  have hstep : readValue (fuel + 1) ('{' :: '"' :: text) =
      (readMembers fuel [] ('"' :: text)).map fun out => (.object out.1, out.2) := rfl
  rw [hstep, h]
  rfl

/-- The reader gives back every readable value. -/
theorem readsBack (v : PyValue) (h : v.Readable) : ReadsBack v := by
  induction v using Json.induct with
  | hnull =>
      intro fuel rest hfuel _
      cases fuel with
      | zero => simp [dumps] at hfuel
      | succ fuel => rfl
  | hbool b =>
      intro fuel rest hfuel _
      cases fuel with
      | zero => cases b <;> simp [dumps] at hfuel
      | succ fuel => cases b <;> rfl
  | hnumber x => exact readValue_number h
  | hstring s =>
      intro fuel rest hfuel _
      cases fuel with
      | zero => simp [dumps, stringText] at hfuel
      | succ fuel =>
          have htext : dumps (.string s) ++ rest =
              '"' :: (s.flatMap escape ++ '"' :: rest) := by
            simp [dumps, stringText]
          have hstep (text : List Char) : readValue (fuel + 1) ('"' :: text) =
              (readString text).map fun out => (.string out.1, out.2) := rfl
          rw [htext, hstep, readString_text]
          rfl
  | harray items ih =>
      intro fuel rest hfuel _
      cases fuel with
      | zero => simp [dumps] at hfuel
      | succ fuel =>
          cases items with
          | nil => rfl
          | cons v items =>
              have htext : dumps (.array (v :: items)) ++ rest =
                  '[' :: (dumpsItems (v :: items) ++ ']' :: rest) := by
                simp [dumps]
              have hlength : (dumps (.array (v :: items))).length =
                  (dumpsItems (v :: items)).length + 2 := by
                simp [dumps]
              have hread := readItems_dumps ih h rest
                (show 2 * (dumpsItems (v :: items)).length < fuel by omega)
              rw [htext]
              exact readValue_array (begins_append _ (begins_dumpsItems h.1)) hread
  | hobject members ih =>
      intro fuel rest hfuel _
      cases fuel with
      | zero => simp [dumps] at hfuel
      | succ fuel =>
          cases members with
          | nil => rfl
          | cons m members =>
              rcases m with ⟨key, v⟩
              have hquote : exists text, dumpsMembers ((key, v) :: members) = '"' :: text := by
                cases members <;> exact ⟨_, rfl⟩
              have htext : dumps (.object ((key, v) :: members)) ++ rest =
                  '{' :: (dumpsMembers ((key, v) :: members) ++ '}' :: rest) := by
                simp [dumps]
              have hlength : (dumps (.object ((key, v) :: members))).length =
                  (dumpsMembers ((key, v) :: members)).length + 2 := by
                simp [dumps]
              have hkeys : (([] : List (List CodeUnit × JsValue)).map Prod.fst ++
                  ((key, v) :: members).map fun n => utf16Text n.1).Nodup := h.1
              have hread := readMembers_dumps ih h.2 rest hkeys
                (show 2 * (dumpsMembers ((key, v) :: members)).length < fuel by omega)
              rcases hquote with ⟨text, hquote⟩
              rw [htext]
              rw [hquote] at hread ⊢
              exact readValue_object hread

theorem parse_dumps {v : PyValue} (h : v.Readable) : parse (dumps v) = some v.read := by
  have hread := readsBack v h (2 * (dumps v).length + 2) [] (by omega)
    (fun c hc => by cases hc)
  rw [List.append_nil] at hread
  unfold parse
  rw [hread]
  rfl

theorem finite_of_exact {x : PyNumber} (h : x.Exact) : x.Finite := by
  cases x with
  | int n => exact True.intro
  | float negative q => exact h
  | nan => exact h
  | infinity negative => exact h

theorem read_of_exact {x : PyNumber} (h : x.Exact) : x.read = x.toJs := by
  cases x with
  | int n =>
      unfold PyNumber.read Literal.toJs
      dsimp only
      rw [magnitude_intLiteral, nearest_representable h]
      rfl
  | float negative q => rfl
  | nan => exact h.elim
  | infinity negative => exact h.elim

theorem readable_and_read {v : PyValue} (h : v.Exact) :
    v.Readable ∧ v.read = v.toJs := by
  induction v using Json.induct with
  | hnull => exact ⟨True.intro, rfl⟩
  | hbool b => exact ⟨True.intro, rfl⟩
  | hnumber x => exact ⟨finite_of_exact h, congrArg Json.number (read_of_exact h)⟩
  | hstring s => exact ⟨True.intro, rfl⟩
  | harray items ih =>
      have hitems : PyValue.EachItem PyNumber.Finite items ∧
          Json.mapItems utf16Text PyNumber.read items =
            Json.mapItems utf16Text PyNumber.toJs items := by
        have heach : PyValue.EachItem PyNumber.Exact items := h
        clear h
        induction items with
        | nil => exact ⟨True.intro, rfl⟩
        | cons v items ihitems =>
            rcases ih v List.mem_cons_self heach.1 with ⟨hv, hread⟩
            rcases ihitems (fun w hw => ih w (List.mem_cons_of_mem _ hw)) heach.2 with
              ⟨hrest, hsame⟩
            exact ⟨⟨hv, hrest⟩, congrArg₂ List.cons hread hsame⟩
      exact ⟨hitems.1, congrArg Json.array hitems.2⟩
  | hobject members ih =>
      have hmembers : PyValue.EachMember PyNumber.Finite members ∧
          Json.mapMembers utf16Text PyNumber.read members =
            Json.mapMembers utf16Text PyNumber.toJs members := by
        have heach : PyValue.EachMember PyNumber.Exact members := h.2
        clear h
        induction members with
        | nil => exact ⟨True.intro, rfl⟩
        | cons m members ihmembers =>
            rcases m with ⟨key, v⟩
            rcases ih (key, v) List.mem_cons_self heach.1 with ⟨hv, hread⟩
            rcases ihmembers (fun n hn => ih n (List.mem_cons_of_mem _ hn)) heach.2 with
              ⟨hrest, hsame⟩
            exact ⟨⟨hv, hrest⟩, congrArg₂ List.cons (congrArg (Prod.mk _) hread) hsame⟩
      exact ⟨⟨h.1, hmembers.1⟩, congrArg Json.object hmembers.2⟩

/-!
# Printable text

What is written has no control characters, whatever the value.
-/

def Printable (text : List Char) : Prop :=
  forall c, c ∈ text -> 0x20 ≤ c.toNat ∧ c.toNat ≤ 0x7E

theorem printable_append {text more : List Char} :
    Printable (text ++ more) <-> Printable text ∧ Printable more :=
  List.forall_mem_append

theorem printable_cons {c : Char} {text : List Char} :
    Printable (c :: text) <->
      (0x20 ≤ c.toNat ∧ c.toNat ≤ 0x7E) ∧ Printable text :=
  List.forall_mem_cons

theorem printable_nil : Printable [] := by
  intro c hc
  cases hc

theorem printable_of_all {text : List Char}
    (h : (text.all fun c => decide (0x20 ≤ c.toNat ∧ c.toNat ≤ 0x7E)) = true) :
    Printable text :=
  fun c hc => of_decide_eq_true (List.all_eq_true.mp h c hc)

theorem printable_of_digits {ds : List Char} (h : Digits ds) : Printable ds := by
  intro c hc
  have hdigit := h c hc
  unfold Char.isDigit at hdigit
  rw [Bool.and_eq_true, decide_eq_true_eq, decide_eq_true_eq] at hdigit
  have hlow : 48 ≤ c.toNat := UInt32.le_iff_toNat_le.mp hdigit.1
  have hhigh : c.toNat ≤ 57 := UInt32.le_iff_toNat_le.mp hdigit.2
  omega

theorem printable_literal {l : Literal} (h : l.Written) : Printable l.text := by
  rcases l with ⟨negative, whole, frac, exponent⟩
  unfold Literal.text
  rw [printable_append, printable_append, printable_append]
  refine ⟨?_, printable_of_digits h.whole, ?_, ?_⟩
  · cases negative with
    | true => exact printable_cons.mpr ⟨by decide, printable_nil⟩
    | false => exact printable_nil
  · unfold Literal.fracText
    split
    next => exact printable_nil
    next => exact printable_cons.mpr ⟨by decide, printable_of_digits h.frac⟩
  · cases exponent with
    | none => exact printable_nil
    | some signed =>
        rcases signed with ⟨minus, ds⟩
        have hds := printable_of_digits (h.exponent minus ds rfl).2
        refine printable_cons.mpr ⟨by decide, printable_cons.mpr ⟨?_, hds⟩⟩
        cases minus <;> decide

theorem printable_numberText (x : PyNumber) : Printable (numberText x) := by
  cases x with
  | int n =>
      have hproper := proper_intLiteral n
      have hprintable := printable_literal
        ⟨hproper.whole, hproper.frac, hproper.exponent⟩
      rw [text_intLiteral] at hprintable
      exact hprintable
  | float negative q => exact printable_literal (written_floatLiteral negative q)
  | nan => exact printable_of_all (by decide)
  | infinity negative => cases negative <;> exact printable_of_all (by decide)

theorem printable_hexDigits (n : Nat) : Printable (hexDigits n) := by
  have hdigit (k : Nat) :
      0x20 ≤ (Nat.digitChar (k % 16)).toNat ∧ (Nat.digitChar (k % 16)).toNat ≤ 0x7E := by
    have hlt : k % 16 < 16 := Nat.mod_lt _ (by decide)
    generalize k % 16 = d at hlt
    interval_cases d <;> decide
  unfold hexDigits
  rw [printable_cons, printable_cons, printable_cons, printable_cons]
  exact ⟨hdigit _, hdigit _, hdigit _, hdigit _, printable_nil⟩

theorem printable_units (us : List CodeUnit) : Printable (us.flatMap unicodeEscape) := by
  induction us with
  | nil => exact printable_nil
  | cons u us ih =>
      have hunit : Printable (unicodeEscape u) :=
        printable_cons.mpr ⟨by decide,
          printable_cons.mpr ⟨by decide, printable_hexDigits _⟩⟩
      exact printable_append.mpr ⟨hunit, ih⟩

theorem printable_escape (c : CodePoint) : Printable (escape c) := by
  have hpair (d : Char) (hd : 0x20 ≤ d.toNat ∧ d.toNat ≤ 0x7E) : Printable ['\\', d] :=
    printable_cons.mpr ⟨by decide, printable_cons.mpr ⟨hd, printable_nil⟩⟩
  unfold escape
  split_ifs with hquote hslash hnewline hreturn htab hfeed hback hplain
  · exact hpair _ (by decide)
  · exact hpair _ (by decide)
  · exact hpair _ (by decide)
  · exact hpair _ (by decide)
  · exact hpair _ (by decide)
  · exact hpair _ (by decide)
  · exact hpair _ (by decide)
  · rw [printable_cons, (codePoint_ofNat hplain.2).1]
    exact ⟨hplain, printable_nil⟩
  · exact printable_units _

theorem printable_stringText (s : List CodePoint) : Printable (stringText s) := by
  have hbody : Printable (s.flatMap escape) := by
    intro c hc
    rcases List.mem_flatMap.mp hc with ⟨d, _, hd⟩
    exact printable_escape d c hd
  exact printable_cons.mpr ⟨by decide, printable_append.mpr
    ⟨hbody, printable_cons.mpr ⟨by decide, printable_nil⟩⟩⟩

theorem printable_dumpsItems {items : List PyValue}
    (h : forall v, v ∈ items -> Printable (dumps v)) : Printable (dumpsItems items) := by
  induction items with
  | nil => exact printable_nil
  | cons v items ih =>
      have hv := h v List.mem_cons_self
      have hmore := ih fun w hw => h w (List.mem_cons_of_mem _ hw)
      cases items with
      | nil => exact hv
      | cons w items =>
          exact printable_append.mpr ⟨hv, printable_cons.mpr ⟨by decide,
            printable_cons.mpr ⟨by decide, hmore⟩⟩⟩

theorem printable_dumpsMembers {members : List (List CodePoint × PyValue)}
    (h : forall m, m ∈ members -> Printable (dumps m.2)) :
    Printable (dumpsMembers members) := by
  induction members with
  | nil => exact printable_nil
  | cons m members ih =>
      rcases m with ⟨key, v⟩
      have hv : Printable (dumps v) := h (key, v) List.mem_cons_self
      have hmore := ih fun n hn => h n (List.mem_cons_of_mem _ hn)
      cases members with
      | nil =>
          exact printable_append.mpr ⟨printable_stringText key,
            printable_cons.mpr ⟨by decide, printable_cons.mpr ⟨by decide, hv⟩⟩⟩
      | cons n members =>
          exact printable_append.mpr ⟨printable_stringText key,
            printable_cons.mpr ⟨by decide, printable_cons.mpr ⟨by decide,
              printable_append.mpr ⟨hv, printable_cons.mpr ⟨by decide,
                printable_cons.mpr ⟨by decide, hmore⟩⟩⟩⟩⟩⟩

theorem printable_dumps (v : PyValue) : Printable (dumps v) := by
  have hlast (c : Char) (hc : 0x20 ≤ c.toNat ∧ c.toNat ≤ 0x7E) : Printable [c] :=
    printable_cons.mpr ⟨hc, printable_nil⟩
  induction v using Json.induct with
  | hnull => exact printable_of_all (by decide)
  | hbool b => cases b <;> exact printable_of_all (by decide)
  | hnumber x => exact printable_numberText x
  | hstring s => exact printable_stringText s
  | harray items ih =>
      exact printable_cons.mpr ⟨by decide,
        printable_append.mpr ⟨printable_dumpsItems ih, hlast _ (by decide)⟩⟩
  | hobject members ih =>
      exact printable_cons.mpr ⟨by decide,
        printable_append.mpr ⟨printable_dumpsMembers ih, hlast _ (by decide)⟩⟩

end Foundation
