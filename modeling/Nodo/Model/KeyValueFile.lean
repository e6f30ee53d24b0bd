import Nodo.Lib.Guards
import Nodo.Lib.SortedMap
import Nodo.Lib.Text

/-!
# Nodo — key-value files

`serialization/KeyValueFileCodec.cpp`: a file of one version line and one line `key=value` for
each field. The reader cuts the text as `std::getline` does and drops a carriage return at the
end of a line; the writer refuses what the reader would not give back.

## Results

* `getlines_append` — a line without a line break is the first line read.
* `KeyValueFileCodec.parse_serialize` — what is written is read back, whatever the fields.
* `KeyValueFileDocument.requireField_ofFields` — with each field under its key.
-/

namespace Nodo.Model

--
-- Documents
--

structure KeyValueFileDocument where
  version : String
  fields : SortedMap String String
  deriving DecidableEq

namespace KeyValueFileDocument

def requireField (document : KeyValueFileDocument) (key : String) : Except String String :=
  match document.fields.find? key with
  | none => .error ("Missing key-value field: " ++ key)
  | some value => .ok value

def requireOnlyFields (document : KeyValueFileDocument) (allowedFields : List String) :
    Except String Unit :=
  match document.fields.keys.find? (fun key => !allowedFields.contains key) with
  | some key => .error ("Unknown key-value field: " ++ key)
  | none => .ok ()

/-- The document of some fields, a later one over an earlier one of the same key. -/
def ofFields (version : String) (fields : List (String × String)) : KeyValueFileDocument :=
  ⟨version, fields.foldl (fun map field => map.insert field.1 field.2) .empty⟩

end KeyValueFileDocument

--
-- The codec
--

namespace KeyValueFileCodec

def isSafeKey (key : String) : Bool :=
  !key.isEmpty && key.toList.all fun c =>
    ('a' ≤ c && c ≤ 'z') || ('A' ≤ c && c ≤ 'Z') || ('0' ≤ c && c ≤ '9')
      || c == '_' || c == '-' || c == '.'

def validateValue (key value : String) : Except String Unit :=
  if value.isEmpty then .error ("Empty value for key-value field: " ++ key)
  else if value.toList.contains '\n' || value.toList.contains '\r' then
    .error ("Multiline value rejected for key-value field: " ++ key)
  else .ok ()

/-- `std::getline` to the end of a text; `line` is the current line, reversed. -/
def getlines (line : List Char) : List Char → List (List Char)
  | [] => if line.isEmpty then [] else [line.reverse]
  | c :: rest => if c = '\n' then line.reverse :: getlines [] rest else getlines (c :: line) rest

/-- A line without the carriage return at its end. -/
def stripReturn (line : List Char) : List Char :=
  if line.getLast? = some '\r' then line.dropLast else line

/-- What the loop of `parse` does with a line `key=value`. -/
def addLine (fields : SortedMap String String) (lineNumber : Nat) (line : List Char) :
    Except String (SortedMap String String) :=
  let key := String.ofList (line.takeWhile (· != '='))
  let rest := line.dropWhile (· != '=')
  let value := String.ofList rest.tail
  if rest.isEmpty || key.isEmpty || rest.length ≤ 1 then
    .error ("Malformed key-value line: " ++ toString lineNumber)
  else if !isSafeKey key then .error ("Unsafe key-value field name: " ++ key)
  else do
    validateValue key value
    if fields.contains key then .error ("Duplicate key-value field: " ++ key)
    else .ok (fields.insert key value)

/-- The loop of `parse` after the version line. -/
def addLines : SortedMap String String → Nat → List (List Char) →
    Except String (SortedMap String String)
  | fields, _, [] => .ok fields
  | fields, lineNumber, line :: rest =>
    if (stripReturn line).isEmpty then .error "Blank line in key-value file."
    else do
      let fields ← addLine fields lineNumber (stripReturn line)
      addLines fields (lineNumber + 1) rest

def parse (contents expectedVersion : String) : Except String KeyValueFileDocument :=
  if expectedVersion.isEmpty then .error "Expected key-value file version cannot be empty."
  else match getlines [] contents.toList with
    | [] => .error "Missing key-value file version."
    | line :: rest =>
      if (stripReturn line).isEmpty then .error "Blank line in key-value file."
      else if String.ofList (stripReturn line) != expectedVersion then
        .error ("Unsupported key-value file version: " ++ String.ofList (stripReturn line))
      else do
        let fields ← addLines .empty 2 rest
        .ok ⟨expectedVersion, fields⟩

/-- The loop of `serialize`; `seen` are the keys already written. -/
def printFields (seen : List String) : List (String × String) → Except String String
  | [] => .ok ""
  | (key, value) :: rest =>
    if !isSafeKey key then .error ("Unsafe key-value field name: " ++ key)
    else do
      validateValue key value
      if seen.contains key then .error ("Duplicate key-value field: " ++ key)
      else do
        let output ← printFields (key :: seen) rest
        .ok (key ++ "=" ++ value ++ "\n" ++ output)

def serialize (version : String) (fields : List (String × String)) : Except String String :=
  if version.isEmpty || version.toList.contains '\n' || version.toList.contains '\r' then
    .error "Invalid key-value file version."
  else do
    let output ← printFields [] fields
    .ok (version ++ "\n" ++ output)

--
-- Lines
--

theorem getlines_append_from {text : List Char} (hbreak : '\n' ∉ text) (line rest : List Char) :
    getlines line (text ++ '\n' :: rest) = (line.reverse ++ text) :: getlines [] rest := by
  induction text generalizing line with
  | nil => simp [getlines]
  | cons c text ih =>
    obtain ⟨hc, hrest⟩ := not_or.mp (mt List.mem_cons.mpr hbreak)
    rw [List.cons_append, getlines, if_neg (Ne.symm hc), ih hrest]
    simp

/-- **The first line of a text.** -/
theorem getlines_append {text : List Char} (hbreak : '\n' ∉ text) (rest : List Char) :
    getlines [] (text ++ '\n' :: rest) = text :: getlines [] rest := by
  rw [getlines_append_from hbreak, List.reverse_nil, List.nil_append]

theorem stripReturn_of_not_mem {line : List Char} (h : '\r' ∉ line) : stripReturn line = line := by
  unfold stripReturn
  rw [if_neg (fun hlast => h (List.mem_of_getLast? hlast))]

theorem isSafeKey_spec {key : String} (h : isSafeKey key = true) :
    key.toList ≠ [] ∧ '=' ∉ key.toList ∧ '\n' ∉ key.toList ∧ '\r' ∉ key.toList := by
  unfold isSafeKey at h
  rw [Bool.and_eq_true] at h
  have hchars := List.all_eq_true.mp h.2
  have hnot : ∀ c : Char, (('a' ≤ c && c ≤ 'z') || ('A' ≤ c && c ≤ 'Z') || ('0' ≤ c && c ≤ '9')
      || c == '_' || c == '-' || c == '.') = false → c ∉ key.toList := by
    intro c hc hmem
    rw [hchars c hmem] at hc
    cases hc
  exact ⟨by simpa using h.1, hnot '=' (by decide), hnot '\n' (by decide), hnot '\r' (by decide)⟩

theorem validateValue_spec {key value : String} {u : Unit} (h : validateValue key value = .ok u) :
    value.toList ≠ [] ∧ '\n' ∉ value.toList ∧ '\r' ∉ value.toList := by
  obtain ⟨hempty, h⟩ := Guards.ok_of_ite_error h
  obtain ⟨hbreak, -⟩ := Guards.ok_of_ite_error h
  simp only [Bool.or_eq_true, List.contains_iff_mem, not_or] at hbreak
  exact ⟨by simpa using hempty, hbreak.1, hbreak.2⟩

/-- A line of one field, read into fields without its key. -/
theorem addLine_print {fields : SortedMap String String} {key value : String} {u : Unit}
    (hkey : isSafeKey key = true) (hvalue : validateValue key value = .ok u)
    (hnew : fields.contains key = false) (lineNumber : Nat) :
    addLine fields lineNumber (key.toList ++ '=' :: value.toList)
      = .ok (fields.insert key value) := by
  obtain ⟨hne, hequals, -, -⟩ := isSafeKey_spec hkey
  obtain ⟨hvalueNe, -, -⟩ := validateValue_spec hvalue
  unfold addLine
  simp only [Text.takeWhile_delimiter hequals, Text.dropWhile_delimiter hequals,
    String.ofList_toList, List.tail_cons]
  rw [if_neg, hkey, hvalue, hnew]
  · rfl
  · simp [hvalueNe, String.toList_eq_nil_iff.not.mp hne]

--
-- What is written is read back
--

/-- The lines of the fields go into a map that has the keys written before. -/
theorem addLines_print {fields : List (String × String)} {seen : List String} {output : String}
    (h : printFields seen fields = .ok output) {map : SortedMap String String}
    (hseen : ∀ key, map.contains key = true → key ∈ seen) (lineNumber : Nat) :
    addLines map lineNumber (getlines [] output.toList)
      = .ok (fields.foldl (fun map field => map.insert field.1 field.2) map) := by
  induction fields generalizing seen output map lineNumber with
  | nil =>
    cases h
    rfl
  | cons field rest ih =>
    obtain ⟨key, value⟩ := field
    obtain ⟨hkeySafe, h⟩ := Guards.ok_of_ite_error h
    obtain ⟨_, hvalue, h⟩ := Guards.ok_of_bind h
    obtain ⟨hdup, h⟩ := Guards.ok_of_ite_error h
    obtain ⟨tail, htail, h⟩ := Guards.ok_of_bind h
    cases h
    have hkey : isSafeKey key = true := by simpa using hkeySafe
    have hnew : map.contains key = false := by
      rw [← Bool.not_eq_true]
      exact fun hin => hdup (by simpa using hseen key hin)
    obtain ⟨hne, -, hkeyBreak, hkeyReturn⟩ := isSafeKey_spec hkey
    obtain ⟨-, hvalueBreak, hvalueReturn⟩ := validateValue_spec hvalue
    have htext : (key ++ "=" ++ value ++ "\n" ++ tail).toList
        = (key.toList ++ '=' :: value.toList) ++ '\n' :: tail.toList := by
      simp [String.toList_append]
    have hbreak : '\n' ∉ key.toList ++ '=' :: value.toList := by
      simp [hkeyBreak, hvalueBreak]
    have hreturn : '\r' ∉ key.toList ++ '=' :: value.toList := by
      simp [hkeyReturn, hvalueReturn]
    rw [htext, getlines_append hbreak, addLines, stripReturn_of_not_mem hreturn, if_neg (by simp),
      addLine_print hkey hvalue hnew, Guards.ok_bind]
    refine ih htail ?_ (lineNumber + 1)
    intro other hother
    rcases (SortedMap.contains_insert map value).mp hother with rfl | hold
    · exact List.mem_cons_self
    · exact List.mem_cons_of_mem _ (hseen other hold)

/-- **What is written is read back.** -/
theorem parse_serialize {version : String} {fields : List (String × String)} {contents : String}
    (h : serialize version fields = .ok contents) :
    parse contents version = .ok (.ofFields version fields) := by
  obtain ⟨hversion, h⟩ := Guards.ok_of_ite_error h
  obtain ⟨output, hprint, h⟩ := Guards.ok_of_bind h
  cases h
  simp only [Bool.or_eq_true, List.contains_iff_mem, not_or] at hversion
  obtain ⟨⟨hne, hbreak⟩, hreturn⟩ := hversion
  have htext : (version ++ "\n" ++ output).toList = version.toList ++ '\n' :: output.toList := by
    simp [String.toList_append]
  have hfields := addLines_print hprint
    (show ∀ key, SortedMap.empty.contains key = true → key ∈ [] from fun key hin => by cases hin) 2
  unfold parse
  rw [if_neg hne, htext, getlines_append hbreak]
  simp only [stripReturn_of_not_mem hreturn, String.ofList_toList, bne_self_eq_false]
  rw [if_neg (by simpa using hne), if_neg Bool.false_ne_true, hfields]
  rfl

/-- The keys of what is written are distinct, and none was written before. -/
theorem nodup_of_printFields {fields : List (String × String)} {seen : List String}
    {output : String} (h : printFields seen fields = .ok output) :
    (fields.map Prod.fst).Nodup ∧ ∀ field ∈ fields, field.1 ∉ seen := by
  induction fields generalizing seen output with
  | nil => exact ⟨List.nodup_nil, by simp⟩
  | cons field rest ih =>
    obtain ⟨key, value⟩ := field
    obtain ⟨-, h⟩ := Guards.ok_of_ite_error h
    obtain ⟨_, -, h⟩ := Guards.ok_of_bind h
    obtain ⟨hdup, h⟩ := Guards.ok_of_ite_error h
    obtain ⟨tail, htail, -⟩ := Guards.ok_of_bind h
    obtain ⟨hnodup, hfresh⟩ := ih htail
    refine ⟨?_, ?_⟩
    · rw [List.map_cons, List.nodup_cons]
      refine ⟨fun hin => ?_, hnodup⟩
      obtain ⟨other, hother, hsame⟩ := List.mem_map.mp hin
      exact hfresh other hother (hsame ▸ List.mem_cons_self)
    · rw [List.forall_mem_cons]
      refine ⟨by simpa using hdup, ?_⟩
      exact fun other hother hin => hfresh other hother (List.mem_cons_of_mem _ hin)

theorem nodup_of_serialize {version : String} {fields : List (String × String)}
    {contents : String} (h : serialize version fields = .ok contents) :
    (fields.map Prod.fst).Nodup := by
  obtain ⟨-, h⟩ := Guards.ok_of_ite_error h
  obtain ⟨output, hprint, -⟩ := Guards.ok_of_bind h
  exact (nodup_of_printFields hprint).1

end KeyValueFileCodec

--
-- The fields of a document
--

namespace KeyValueFileDocument

theorem find?_foldl_insert {fields : List (String × String)} (map : SortedMap String String)
    (hnodup : (fields.map Prod.fst).Nodup) {key value : String} :
    (fields.foldl (fun map field => map.insert field.1 field.2) map).find? key = some value ↔
      (key, value) ∈ fields ∨ key ∉ fields.map Prod.fst ∧ map.find? key = some value := by
  induction fields generalizing map with
  | nil => simp
  | cons field rest ih =>
    obtain ⟨first, text⟩ := field
    rw [List.map_cons, List.nodup_cons] at hnodup
    obtain ⟨hfirst, hrest⟩ := hnodup
    rw [List.foldl_cons, ih _ hrest, SortedMap.find?_insert]
    by_cases hkey : key = first
    · subst hkey
      have hnot : (key, value) ∉ rest :=
        fun hin => hfirst (List.mem_map.mpr ⟨(key, value), hin, rfl⟩)
      simp [hnot, hfirst, eq_comm]
    · simp [hkey, Ne.symm hkey, eq_comm]

theorem requireField_ofFields {version : String} {fields : List (String × String)}
    (hnodup : (fields.map Prod.fst).Nodup) {key value : String} (h : (key, value) ∈ fields) :
    (ofFields version fields).requireField key = .ok value := by
  unfold requireField ofFields
  rw [(find?_foldl_insert .empty hnodup).mpr (Or.inl h)]

theorem requireOnlyFields_ofFields {version : String} {fields : List (String × String)}
    (hnodup : (fields.map Prod.fst).Nodup) {allowedFields : List String}
    (h : ∀ key ∈ fields.map Prod.fst, key ∈ allowedFields) :
    (ofFields version fields).requireOnlyFields allowedFields = .ok () := by
  have hnone : (ofFields version fields).fields.keys.find?
      (fun key => !allowedFields.contains key) = none := by
    rw [List.find?_eq_none]
    intro key hkey
    obtain ⟨value, hentry⟩ := (SortedMap.mem_keys_iff _).mp hkey
    rcases (find?_foldl_insert .empty hnodup).mp ((SortedMap.find?_eq_some_iff _).mpr hentry)
      with hin | ⟨-, hempty⟩
    · simpa using h key (List.mem_map_of_mem hin)
    · cases hempty
  unfold requireOnlyFields
  rw [hnone]

end KeyValueFileDocument

end Nodo.Model
