import Mathlib.Data.List.Basic

/-!
# Files and directory listings: `euralios_std/src/fs.rs`

A `File` is a handle to a file server. `File::open` and `File::create` get one from
`syscalls::open`; `File::query`, `File::write` and `File::read_to_end` each send one request with
`rcall` and match on the reply. `read_dir(path)` opens `path`, queries it for a JSON description,
and turns the array under the description's `"files"` key into a `ReadDir`: a `Vec<DirEntry>`
that its `Iterator::next` pops from the back.

`syscalls::open`, `rcall` and `serde_json::from_str` are outside this fragment, and so are the
values of the message tags: the functions here take them as parameters, so every theorem holds
for every file server and every reply. `str::from_utf8` is Lean's `String.fromUTF8?`.

JSON values are serde_json's `Value`. An object is the list of its members, looked up front to
back; serde_json's map holds each key once, so every value it builds is one of these, and the
theorems below hold for every list, repeated keys included. Numbers are kept as integers: no
function here reads one.

* `File.query_eq_ok`, `File.write_eq_ok`, `File.readToEnd_eq_ok`: which replies each request
  accepts and what it makes of them; `File.readToEnd_eq_error`: a failed read leaves the buffer
  as it was.
* `File.query_eq_error`: unlike the other two requests, a query never passes an error of `rcall`
  on.
* `ReadDir.nth_eq`: the call of `next` after `n` calls yields the `n`-th entry from the back, and
  `None` once the entries are used up.
* `read_dir_yields_files_reversed`: for every value a query returns, `read_dir` yields the names
  of the `"files"` array from last to first and then `None` on every call, or `None` at once when
  `"files"` is not an array.
* `readDir_open_query_eq_ok`: over `File::open` and `File::query`, the replies with which
  `read_dir` succeeds.
-/

namespace Euralios.Std

/-- `serde_json::Value`. -/
inductive Value
  /-- `Value::Null`. -/
  | null
  /-- `Value::Bool`. -/
  | bool (b : Bool)
  /-- `Value::Number`. -/
  | number (n : Int)
  /-- `Value::String`. -/
  | string (s : String)
  /-- `Value::Array`. -/
  | array (items : List Value)
  /-- `Value::Object`, its members in order. -/
  | object (members : List (String × Value))
  deriving Repr

namespace Value

/-- `value[key]`, serde_json's `Index<&str>`: the member `key` of an object, and `Null` for a
missing key or for any value that is not an object. -/
def index : Value → String → Value
  | .object members, key => (members.lookup key).getD .null
  | _, _ => .null

/-- `Value::as_array`. -/
def asArray : Value → Option (List Value)
  | .array items => some items
  | _ => none

/-- `Value::as_str`. -/
def asStr : Value → Option String
  | .string s => some s
  | _ => none

end Value

/-- A `SyscallError`, a `u64` code. -/
structure SyscallError where
  /-- The error code, one of the kernel's `SYSCALL_ERROR_*` values or a server's own. -/
  code : Nat
  deriving DecidableEq, Repr

/-- `File`: the `CommHandle` of an open file. -/
structure File where
  /-- The handle of the file server's communication endpoint for this file. -/
  handle : Nat
  deriving DecidableEq, Repr

/-- `FileQuery`: the `Value` a query returned. -/
structure FileQuery where
  /-- The JSON description the file server sent. -/
  value : Value

/-! ## Requests to the file server -/

/-- `MemoryHandle`: a chunk of memory that moves between processes with a message. -/
structure MemoryHandle where
  /-- The bytes the chunk holds. -/
  bytes : List UInt8
  deriving DecidableEq, Repr

namespace MemoryHandle

/-- `MemoryHandle::from_u8_slice(buf)`: a new chunk holding a copy of `buf`. -/
def fromU8Slice (buf : List UInt8) : MemoryHandle := ⟨buf⟩

/-- `handle.as_slice::<u8>(length)`: the first `length` bytes of the chunk. -/
def asSlice (handle : MemoryHandle) (length : Nat) : List UInt8 := handle.bytes.take length

end MemoryHandle

/-- `MessageData`: a `u64` value, a communication handle or a memory handle. -/
inductive MessageData
  /-- `MessageData::Value`. -/
  | value (v : Nat)
  /-- `MessageData::CommHandle`. -/
  | commHandle (handle : Nat)
  /-- `MessageData::MemoryHandle`. -/
  | memoryHandle (handle : MemoryHandle)
  deriving DecidableEq, Repr

/-- What `rcall` returns: the reply's tag and its two data, or the error code. The message that
comes back with an error is left out; `fs.rs` at most prints it. -/
abbrev RcallResult := Except SyscallError (Nat × MessageData × MessageData)

/-- The constants of `message.rs` and `syscalls.rs` that `fs.rs` uses. Their values are defined
outside this fragment, so the functions below take them as a parameter. -/
structure Constants where
  /-- `message::O_READ`. -/
  oRead : Nat
  /-- `message::O_WRITE`. -/
  oWrite : Nat
  /-- `message::O_CREATE`. -/
  oCreate : Nat
  /-- `message::O_TRUNCATE`. -/
  oTruncate : Nat
  /-- `message::QUERY`. -/
  query : Nat
  /-- `message::JSON`. -/
  json : Nat
  /-- `message::WRITE`. -/
  write : Nat
  /-- `message::OK`. -/
  ok : Nat
  /-- `message::READ`. -/
  read : Nat
  /-- `message::DATA`. -/
  data : Nat
  /-- `syscalls::SYSCALL_ERROR_PARAM`. -/
  syscallErrorParam : SyscallError

/-- `str::from_utf8`: the text whose UTF-8 encoding is `bytes`, if there is one. -/
def fromUtf8 (bytes : List UInt8) : Option String := String.fromUTF8? ⟨bytes.toArray⟩

section Requests

/- `sysOpen` is `syscalls::open(path, flags)`, `rcall handle tag data2 data3` is
`rcall(&handle, tag, data2, data3, None)`, and `fromStr` is `serde_json::from_str::<Value>`. -/
variable (k : Constants) (sysOpen : String → Nat → Except SyscallError Nat)
  (rcall : Nat → Nat → MessageData → MessageData → RcallResult)
  (fromStr : String → Option Value)

/-- The body that `File::create` and `File::open` share: `syscalls::open(path, flags)`, and the
file of the handle it returns. -/
def File.openWith (flags : Nat) (path : String) : Except SyscallError File := do
  let handle ← sysOpen path flags
  return ⟨handle⟩

/-- `File::create(path)`: opens `path` for writing, creating or truncating the file. -/
def File.create (path : String) : Except SyscallError File :=
  File.openWith sysOpen (k.oWrite + k.oCreate + k.oTruncate) path

/-- `File::open(path)`: opens `path` for reading. -/
def File.open (path : String) : Except SyscallError File :=
  File.openWith sysOpen k.oRead path

/-- `File::query`: a `QUERY` request. A `JSON` reply carrying a length and a memory chunk is read
as UTF-8 text and parsed; a failed parse, any other reply and an error of `rcall` all give
`SYSCALL_ERROR_PARAM`. -/
def File.query (f : File) : Except SyscallError FileQuery :=
  match rcall f.handle k.query (.value 0) (.value 0) with
  | .ok (tag, .value length, .memoryHandle handle) =>
    if tag = k.json then
      match fromUtf8 (handle.asSlice length) with
      | some s =>
        match fromStr s with
        | some v => .ok ⟨v⟩
        | none => .error k.syscallErrorParam
      | none => .error k.syscallErrorParam
    else .error k.syscallErrorParam
  | _ => .error k.syscallErrorParam

/-- The reply handling that `File::write` and `File::read_to_end` share: a reply with the expected
tag whose data `accept` takes gives `accept`'s result, an error of `rcall` is passed on, and any
other reply gives `SYSCALL_ERROR_PARAM`. -/
def expectReply {α : Type} (tag : Nat) (accept : MessageData → MessageData → Option α) :
    RcallResult → Except SyscallError α
  | .ok (t, d₁, d₂) =>
    match accept d₁ d₂ with
    | some a => if t = tag then .ok a else .error k.syscallErrorParam
    | none => .error k.syscallErrorParam
  | .error err => .error err

/-- `File::write(buf)`: a `WRITE` request carrying the length of `buf` and a copy of it. An `OK`
reply gives the number of bytes written. -/
def File.write (f : File) (buf : List UInt8) : Except SyscallError Nat :=
  expectReply k k.ok (fun d _ => match d with | .value sentLength => some sentLength | _ => none)
    (rcall f.handle k.write (.value buf.length) (.memoryHandle (.fromU8Slice buf)))

/-- `File::read_to_end(buf)`: a `READ` request. A `DATA` reply carrying a length and a memory
chunk appends that many bytes of the chunk to `buf` and gives the length. The buffer is returned
beside the result. -/
def File.readToEnd (f : File) (buf : List UInt8) : Except SyscallError Nat × List UInt8 :=
  match expectReply k k.data
      (fun d₁ d₂ => match d₁, d₂ with
        | .value length, .memoryHandle data => some (length, data)
        | _, _ => none)
      (rcall f.handle k.read (.value 0) (.value 0)) with
  | .ok (length, data) => (.ok length, buf ++ data.asSlice length)
  | .error err => (.error err, buf)

end Requests

/-- `DirEntry`. -/
structure DirEntry where
  /-- The bare file name, with no leading path component. -/
  name : String
  deriving DecidableEq, Repr

/-- `DirEntry::file_name`. -/
def DirEntry.fileName (entry : DirEntry) : String := entry.name

/-- `ReadDir`: the entries not yet yielded, in the order of the `Vec`. -/
structure ReadDir where
  /-- The entries left; `next` pops them from the back. -/
  entries : List DirEntry
  deriving DecidableEq, Repr

namespace ReadDir

/-- `Iterator::next`: `entries.pop()`, which takes the last entry, or leaves an empty `Vec` as it
is. -/
def next (r : ReadDir) : Option (Except SyscallError DirEntry) × ReadDir :=
  match r.entries.getLast? with
  | some entry => (some (.ok entry), ⟨r.entries.dropLast⟩)
  | none => (none, r)

/-- The iterator after `n` calls of `next`. -/
def advance (r : ReadDir) : Nat → ReadDir
  | 0 => r
  | n + 1 => r.next.2.advance n

/-- What the call of `next` after `n` calls returns. -/
def nth (r : ReadDir) (n : Nat) : Option (Except SyscallError DirEntry) :=
  (r.advance n).next.1

end ReadDir

/-- The `DirEntry` that `read_dir` makes of one element of `"files"`: its `"name"` when that is a
string, `"_bad_"` otherwise. -/
def dirEntryOf (obj : Value) : DirEntry :=
  ⟨((obj.index "name").asStr).getD "_bad_"⟩

/-- The `ReadDir` that `read_dir` builds from a query result. -/
def readDirOf (query : FileQuery) : ReadDir :=
  match (query.value.index "files").asArray with
  | some vec => ⟨vec.map dirEntryOf⟩
  | none => ⟨[]⟩

/-- `read_dir(path)`, where `openFile` is `File::open` and `query` is `File::query`. -/
def readDir (openFile : String → Except SyscallError File)
    (query : File → Except SyscallError FileQuery) (path : String) :
    Except SyscallError ReadDir := do
  let f ← openFile path
  let query ← query f
  return readDirOf query

/-! ## The iterator -/

namespace ReadDir

@[simp]
theorem next_nil : (⟨[]⟩ : ReadDir).next = (none, ⟨[]⟩) := rfl

@[simp]
theorem next_append_singleton (entries : List DirEntry) (entry : DirEntry) :
    (⟨entries ++ [entry]⟩ : ReadDir).next = (some (.ok entry), ⟨entries⟩) := by
  simp [next]

/-- Each call pops one entry: after `n` calls the first `length - n` entries are left. -/
theorem advance_eq (entries : List DirEntry) (n : Nat) :
    (⟨entries⟩ : ReadDir).advance n = ⟨(entries.reverse.drop n).reverse⟩ := by
  induction n generalizing entries with
  | zero => simp [advance]
  | succ n ih =>
    rcases List.eq_nil_or_concat entries with rfl | ⟨init, entry, rfl⟩
    · simpa [advance] using ih []
    · simp [advance, ih]

/-- The call of `next` after `n` calls yields the `n`-th entry from the back, and `None` once
they are used up. -/
theorem nth_eq (entries : List DirEntry) (n : Nat) :
    (⟨entries⟩ : ReadDir).nth n = entries.reverse[n]?.map .ok := by
  rw [nth, advance_eq]
  cases h : entries.reverse.drop n with
  | nil =>
    have hn : entries.reverse[n]? = none :=
      List.getElem?_eq_none (by simpa [List.drop_eq_nil_iff] using h)
    simp [hn]
  | cons entry rest =>
    have hn : entries.reverse[n]? = some entry := by
      rw [← List.head?_drop, h]; rfl
    simp [hn, next]

end ReadDir

/-! ## The requests -/

section RequestSpecs

variable {k : Constants} {sysOpen : String → Nat → Except SyscallError Nat}
  {rcall : Nat → Nat → MessageData → MessageData → RcallResult} {fromStr : String → Option Value}

/-- `File::create` and `File::open` give the file of the handle that `syscalls::open` returns for
their flags. -/
@[simp]
theorem File.openWith_eq_ok {flags : Nat} {path : String} {f : File} :
    File.openWith sysOpen flags path = .ok f ↔ sysOpen path flags = .ok f.handle := by
  cases f
  cases h : sysOpen path flags <;> simp [File.openWith, h, bind, Except.bind, pure, Except.pure]

/-- `File::create` and `File::open` fail exactly with the error of `syscalls::open`. -/
@[simp]
theorem File.openWith_eq_error {flags : Nat} {path : String} {e : SyscallError} :
    File.openWith sysOpen flags path = .error e ↔ sysOpen path flags = .error e := by
  cases h : sysOpen path flags <;> simp [File.openWith, h, bind, Except.bind, pure, Except.pure]

/-- `File::query` returns `q` exactly when the server answers `QUERY` with `JSON`, a length and a
memory chunk whose first `length` bytes are UTF-8 text that parses to `q`'s value. -/
theorem File.query_eq_ok {f : File} {q : FileQuery} :
    File.query k rcall fromStr f = .ok q ↔ ∃ length handle s,
      rcall f.handle k.query (.value 0) (.value 0) =
        .ok (k.json, .value length, .memoryHandle handle) ∧
      fromUtf8 (handle.asSlice length) = some s ∧ fromStr s = some q.value := by
  constructor
  · intro h
    unfold File.query at h
    split at h
    next tag length handle hr =>
      by_cases ht : tag = k.json
      · rw [if_pos ht] at h
        split at h
        next s hs =>
          split at h
          next v hv =>
            cases h
            exact ⟨length, handle, s, ht ▸ hr, hs, hv⟩
          next => cases h
        next => cases h
      · rw [if_neg ht] at h
        cases h
    next => cases h
  · rintro ⟨length, handle, s, hr, hs, hv⟩
    simp [File.query, hr, hs, hv]

/-- `File::query` fails only with `SYSCALL_ERROR_PARAM`. Unlike `File::write` and
`File::read_to_end`, it does not pass on an error of `rcall`. -/
theorem File.query_eq_error {f : File} {e : SyscallError}
    (h : File.query k rcall fromStr f = .error e) : e = k.syscallErrorParam := by
  unfold File.query at h
  repeat' split at h
  all_goals first | exact (Except.error.inj h).symm | cases h

/-- The shared reply handler returns `a` exactly when the reply has the expected tag and `accept`
takes its data to `a`. -/
theorem expectReply_eq_ok {α : Type} {tag : Nat} {accept : MessageData → MessageData → Option α}
    {r : RcallResult} {a : α} :
    expectReply k tag accept r = .ok a ↔
      ∃ d₁ d₂, r = .ok (tag, d₁, d₂) ∧ accept d₁ d₂ = some a := by
  rcases r with err | ⟨t, d₁, d₂⟩
  · simp [expectReply]
  · cases h : accept d₁ d₂ <;> by_cases ht : t = tag <;>
      simp [expectReply, h, ht, and_assoc, eq_comm]

/-- The shared reply handler fails with the error of `rcall`, or with `SYSCALL_ERROR_PARAM`. -/
theorem expectReply_eq_error {α : Type} {tag : Nat} {accept : MessageData → MessageData → Option α}
    {r : RcallResult} {e : SyscallError} (h : expectReply k tag accept r = .error e) :
    r = .error e ∨ e = k.syscallErrorParam := by
  rcases r with err | ⟨t, d₁, d₂⟩
  · exact .inl (by simpa [expectReply] using h)
  · right
    cases h' : accept d₁ d₂ <;> by_cases ht : t = tag <;> simp_all [expectReply]

/-- `File::write` returns `n` exactly when the server answers the `WRITE` request, which carries
the length of `buf` and a copy of it, with `OK` and the value `n`. -/
theorem File.write_eq_ok {f : File} {buf : List UInt8} {n : Nat} :
    File.write k rcall f buf = .ok n ↔ ∃ d,
      rcall f.handle k.write (.value buf.length) (.memoryHandle (.fromU8Slice buf)) =
        .ok (k.ok, .value n, d) := by
  rw [File.write, expectReply_eq_ok]
  constructor
  · rintro ⟨(sent | _ | _), d, h, hd⟩ <;> simp at hd
    exact ⟨d, hd ▸ h⟩
  · rintro ⟨d, h⟩
    exact ⟨_, d, h, rfl⟩

/-- `File::write` fails with the error of `rcall`, or with `SYSCALL_ERROR_PARAM`. -/
theorem File.write_eq_error {f : File} {buf : List UInt8} {e : SyscallError}
    (h : File.write k rcall f buf = .error e) :
    rcall f.handle k.write (.value buf.length) (.memoryHandle (.fromU8Slice buf)) = .error e ∨
      e = k.syscallErrorParam :=
  expectReply_eq_error h

/-- `File::read_to_end` returns `n` and the buffer `buf'` exactly when the server answers `READ`
with `DATA`, the value `n` and a memory chunk, and `buf'` is `buf` followed by the chunk's first
`n` bytes. -/
theorem File.readToEnd_eq_ok {f : File} {buf buf' : List UInt8} {n : Nat} :
    File.readToEnd k rcall f buf = (.ok n, buf') ↔ ∃ data,
      rcall f.handle k.read (.value 0) (.value 0) = .ok (k.data, .value n, .memoryHandle data) ∧
      buf' = buf ++ data.asSlice n := by
  constructor
  · intro h
    unfold File.readToEnd at h
    split at h
    next length data he =>
      obtain ⟨(_ | _ | _), (_ | _ | data'), hr, hd⟩ := expectReply_eq_ok.mp he <;> cases hd
      cases h
      exact ⟨_, hr, rfl⟩
    next => cases h
  · rintro ⟨data, hr, rfl⟩
    simp [File.readToEnd, expectReply, hr]

/-- A failed `File::read_to_end` leaves the buffer as it was, and fails with the error of `rcall`
or with `SYSCALL_ERROR_PARAM`. -/
theorem File.readToEnd_eq_error {f : File} {buf : List UInt8} {e : SyscallError}
    (h : (File.readToEnd k rcall f buf).1 = .error e) :
    (File.readToEnd k rcall f buf).2 = buf ∧
      (rcall f.handle k.read (.value 0) (.value 0) = .error e ∨ e = k.syscallErrorParam) := by
  unfold File.readToEnd at h ⊢
  split at h
  next => cases h
  next err hr =>
    cases h
    exact ⟨rfl, expectReply_eq_error hr⟩

end RequestSpecs

/-! ## `read_dir` -/

section ReadDirSpecs

variable {openFile : String → Except SyscallError File}
  {query : File → Except SyscallError FileQuery} {path : String}

/-- `read_dir` returns `r` exactly when the file opens, answers the query with some `q`, and `r`
is the `ReadDir` built from `q`. -/
theorem readDir_eq_ok_iff {r : ReadDir} :
    readDir openFile query path = .ok r ↔
      ∃ f q, openFile path = .ok f ∧ query f = .ok q ∧ readDirOf q = r := by
  cases hf : openFile path with
  | error e => simp [readDir, hf, bind, Except.bind]
  | ok f => cases hq : query f <;> simp [readDir, hf, hq, bind, Except.bind, pure, Except.pure]

/-- `read_dir` fails exactly with the error of the open, or with the error of the query of the
opened file. -/
theorem readDir_eq_error_iff {e : SyscallError} :
    readDir openFile query path = .error e ↔
      openFile path = .error e ∨ ∃ f, openFile path = .ok f ∧ query f = .error e := by
  cases hf : openFile path with
  | error e' => simp [readDir, hf, bind, Except.bind]
  | ok f => cases hq : query f <;> simp [readDir, hf, hq, bind, Except.bind, pure, Except.pure]

/-- Once the file opens and answers the query, `read_dir` returns the `ReadDir` built from the
answer. -/
theorem readDir_of_query {f : File} {q : FileQuery} (hopen : openFile path = .ok f)
    (hquery : query f = .ok q) : readDir openFile query path = .ok (readDirOf q) :=
  readDir_eq_ok_iff.mpr ⟨f, q, hopen, hquery, rfl⟩

end ReadDirSpecs

/-- For every JSON value `v` that `File::query` returns for the opened path, `read_dir` returns a
`ReadDir` whose successive calls of `next` behave as follows. If `v["files"]` is an array
`[o₁, …, oₙ]`, the call after `i` calls yields `Ok` of the entry named after `oₙ₋ᵢ`, for `i < n`,
and `None` for every `i ≥ n`; an element's name is its `"name"` when that is a string and
`"_bad_"` otherwise. If `v["files"]` is not an array, every call yields `None`. -/
theorem read_dir_yields_files_reversed (openFile : String → Except SyscallError File)
    (query : File → Except SyscallError FileQuery) (path : String) (f : File) (v : Value)
    (hopen : openFile path = .ok f) (hquery : query f = .ok ⟨v⟩) :
    ∃ r, readDir openFile query path = .ok r ∧
      (∀ files, (v.index "files").asArray = some files → ∀ i,
        r.nth i = files.reverse[i]?.map fun o => .ok ⟨((o.index "name").asStr).getD "_bad_"⟩) ∧
      ((v.index "files").asArray = none → ∀ i, r.nth i = none) := by
  refine ⟨_, readDir_of_query hopen hquery, fun files hfiles i => ?_, fun hfiles i => ?_⟩
  · simp [readDirOf, hfiles, ReadDir.nth_eq, ← List.map_reverse, Function.comp_def, dirEntryOf]
  · simp [readDirOf, hfiles, ReadDir.nth_eq]

/-- A directory whose `"files"` array holds an entry named `init` and a number. -/
theorem read_dir_yields_files_reversed_two_files :
    let v : Value := .object [("files", .array [.object [("name", .string "init")], .number 7])]
    ((fun _ => .ok ⟨3⟩ : String → Except SyscallError File) "/bin" = .ok ⟨3⟩ ∧
      (fun _ => .ok ⟨v⟩ : File → Except SyscallError FileQuery) ⟨3⟩ = .ok ⟨v⟩) ∧
    ∃ r, readDir (fun _ => .ok ⟨3⟩) (fun _ => .ok ⟨v⟩) "/bin" = .ok r ∧
      (∀ files, (v.index "files").asArray = some files → ∀ i,
        r.nth i = files.reverse[i]?.map fun o => .ok ⟨((o.index "name").asStr).getD "_bad_"⟩) ∧
      ((v.index "files").asArray = none → ∀ i, r.nth i = none) :=
  ⟨⟨rfl, rfl⟩, read_dir_yields_files_reversed _ _ "/bin" ⟨3⟩ _ rfl rfl⟩

/-- The number has no `"name"`: it is yielded first, as `_bad_`, then `init`, then nothing. -/
example :
    let r := readDirOf ⟨.object [("files", .array [.object [("name", .string "init")], .number 7])]⟩
    r.nth 0 = some (.ok ⟨"_bad_"⟩) ∧ r.nth 1 = some (.ok ⟨"init"⟩) ∧ r.nth 2 = none :=
  ⟨rfl, rfl, rfl⟩

/-! ## `read_dir` over `File::open` and `File::query` -/

section OverRequests

variable {k : Constants} {sysOpen : String → Nat → Except SyscallError Nat}
  {rcall : Nat → Nat → MessageData → MessageData → RcallResult} {fromStr : String → Option Value}
  {path : String}

/-- `read_dir(path)` returns `r` exactly when `syscalls::open` opens `path` for reading, the file
server answers `QUERY` on the handle with `JSON`, a length and a memory chunk whose first `length`
bytes are UTF-8 text that parses to some `v`, and `r` is the `ReadDir` built from `v`. -/
theorem readDir_open_query_eq_ok {r : ReadDir} :
    readDir (File.open k sysOpen) (File.query k rcall fromStr) path = .ok r ↔
      ∃ handle length chunk s v, sysOpen path k.oRead = .ok handle ∧
        rcall handle k.query (.value 0) (.value 0) =
          .ok (k.json, .value length, .memoryHandle chunk) ∧
        fromUtf8 (chunk.asSlice length) = some s ∧ fromStr s = some v ∧ readDirOf ⟨v⟩ = r := by
  simp only [readDir_eq_ok_iff, File.open, File.openWith_eq_ok, File.query_eq_ok]
  constructor
  · rintro ⟨⟨handle⟩, ⟨v⟩, hopen, ⟨length, chunk, s, hr, hs, hv⟩, rfl⟩
    exact ⟨handle, length, chunk, s, v, hopen, hr, hs, hv, rfl⟩
  · rintro ⟨handle, length, chunk, s, v, hopen, hr, hs, hv, rfl⟩
    exact ⟨⟨handle⟩, ⟨v⟩, hopen, ⟨length, chunk, s, hr, hs, hv⟩, rfl⟩

end OverRequests

end Euralios.Std
