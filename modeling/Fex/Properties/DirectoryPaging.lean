import Fex.Foundation.Paging
import Fex.Passthrough.Daemon
import Fex.Properties.DirentRoundTrip

/-!
# Reading a directory in pages

## Main result

`paging_exact`: the kernel reads a directory of the passthrough daemon with one READDIR after
another, each from the `off` of the last entry it got, with any room that is enough for the next
entry. What it decodes is a part of the directory from its front, an empty reply comes only
behind the last entry, and with more requests than entries it has the whole directory.

## Proof strategy

`readdirLoop_packs` follows the loop of `readdir` from any position: what it packs are the next
entries of the stream, and there is one among them if the first record fits. With the decoding
of the reply this makes a request one step of `Foundation.Pages` (`readdir_page`): the `off` of
the last entry of the page is the cookie of the position behind it, where the next request
seeks. The position in which the stream was left does not matter.
-/
namespace Fex

open Foundation Program

/-! ### The entries of a directory -/

namespace Directory

/-- The entry at position `n` as it goes to the kernel. -/
def dirent (dir : Directory) (n : Nat) (de : SysDirent) : Dirent :=
  { name := de.name, ino := de.ino, off := dir.cookie (n + 1), type := de.type.toUInt32 }

def dirents (dir : Directory) : List Dirent := dir.entries.mapIdx dir.dirent

theorem drop_dirents {dir : Directory} {n : Nat} {de : SysDirent}
    (present : dir.entries[n]? = some de) :
    dir.dirents.drop n = dir.dirent n de :: dir.dirents.drop (n + 1) := by
  obtain ⟨inside, rfl⟩ := List.getElem?_eq_some_iff.mp present
  have bound : n < dir.dirents.length := by rwa [dirents, List.length_mapIdx]
  rw [List.drop_eq_getElem_cons bound]
  simp [dirents]

/-- The last entry of a page says where the next one begins. -/
theorem seek_last {dir : Directory} {n : Nat} {page : List Dirent} {last : Dirent}
    (front : page <+: dir.dirents.drop n) (ends : page.getLast? = some last) :
    dir.seek last.off = n + page.length := by
  have nonempty : 0 < page.length := by
    cases page with
    | nil => cases ends
    | cons d page => exact Nat.succ_pos _
  have fits : n + page.length ≤ dir.entries.length := by
    have shorter := front.length_le
    rw [List.length_drop, dirents, List.length_mapIdx] at shorter
    omega
  have index : n + (page.length - 1) + 1 = n + page.length := by omega
  have found : dir.dirents[n + (page.length - 1)]? = some last := by
    obtain ⟨rest, whole⟩ := front
    rw [← List.getElem?_drop, ← whole, List.getElem?_append_left (by omega),
      ← List.getLast?_eq_getElem?, ends]
  simp only [dirents, List.getElem?_mapIdx, Option.map_eq_some_iff] at found
  obtain ⟨de, _, rfl⟩ := found
  rw [dirent, index]
  exact dir.seek_cookie _ (by omega) fits

end Directory

/-! ### The loop -/

namespace DirentScript

variable {α : Type} (d : Dirent) (next : Bool → DirentScript α) (w : DirentWriter)

theorem fill_ask_bind : fill (ask d >>= next) w = fill (next (w.add d).1) (w.add d).2 := rfl

theorem accepted_packed (packed : (w.add d).1 = true) :
    accepted (ask d >>= next) w = d :: accepted (next true) (w.add d).2 := by
  simp [accepted, packed]

theorem accepted_refused (refused : (w.add d).1 = false) :
    accepted (ask d >>= next) w = accepted (next false) w := by
  simp [accepted, refused, w.add_refused d refused]

end DirentScript

namespace Passthrough

theorem readdirLoop_end {d : DirStream} (off : UInt64) (read : d.readdir = none)
    (sound : d.dir.failure = none) : readdirLoop d off = pure (.ok (), d) := by
  rw [readdirLoop]
  split
  next => simp only [sound]
  next again =>
    rw [read] at again
    cases again

theorem readdirLoop_next {d d' : DirStream} {de : SysDirent} (off : UInt64)
    (read : d.readdir = some (de, d')) :
    readdirLoop d off = (do
      let packed ← ask (d.dir.dirent d.pos de)
      if packed then readdirLoop d' d'.telldir else pure (.ok (), d'.seekdir off)) := by
  obtain ⟨_, moved⟩ := DirStream.readdir_eq_some read
  rw [readdirLoop]
  split
  next again =>
    rw [read] at again
    cases again
  next again =>
    rw [read] at again
    cases again
    subst moved
    rfl

end Passthrough

/-- What the loop of `readdir` does with a writer from where a stream stands. -/
structure PacksNext (d : DirStream) (w : DirentWriter)
    (script : DirentScript (Except Errc Unit × DirStream)) : Prop where
  success : (script.fill w).1.1 = .ok ()
  dir : (script.fill w).1.2.dir = d.dir
  front : script.accepted w <+: d.dir.dirents.drop d.pos
  room : script.accepted w = [] → ∀ de, d.dir.entries[d.pos]? = some de →
    w.buf.length < w.pos + DirentWriter.padded (FuseDirent.codec.size + de.name.length)

theorem readdirLoop_packs (d : DirStream) (off : UInt64) (w : DirentWriter) (valid : w.Valid)
    (sound : d.dir.failure = none) : PacksNext d w (Passthrough.readdirLoop d off) := by
  induction d, off using Passthrough.readdirLoop.induct generalizing w with
  | case1 d off read e failure =>
    rw [sound] at failure
    cases failure
  | case2 d off read failure =>
    rw [Passthrough.readdirLoop_end off read sound]
    refine ⟨rfl, rfl, List.nil_prefix, ?_⟩
    intro _ de present
    simp [DirStream.readdir, present] at read
  | case3 d off de d' read _ ih =>
    obtain ⟨present, moved⟩ := DirStream.readdir_eq_some read
    rw [Passthrough.readdirLoop_next off read]
    cases verdict : (w.add (d.dir.dirent d.pos de)).1 with
    | true =>
      -- Packed: the rest of the loop goes on from the next position.
      subst moved
      have rest := ih (w.add (d.dir.dirent d.pos de)).2 (w.add_valid _ valid) sound
      constructor
      · rw [DirentScript.fill_ask_bind, verdict]
        exact rest.success
      · rw [DirentScript.fill_ask_bind, verdict]
        exact rest.dir
      · rw [DirentScript.accepted_packed _ _ _ verdict, Directory.drop_dirents present]
        exact List.cons_prefix_cons.mpr ⟨rfl, rest.front⟩
      · rw [DirentScript.accepted_packed _ _ _ verdict]
        intro empty
        cases empty
    | false =>
      -- Refused: nothing is packed, because this record does not fit.
      subst moved
      constructor
      · rw [DirentScript.fill_ask_bind, verdict]
        rfl
      · rw [DirentScript.fill_ask_bind, verdict]
        rfl
      · rw [DirentScript.accepted_refused _ _ _ verdict]
        exact List.nil_prefix
      · intro _ de' present'
        rw [present, Option.some.injEq] at present'
        subst present'
        have full := (w.add_refuses_iff _ valid).mp verdict
        rwa [Directory.dirent] at full

/-! ### One request -/

section Requests

variable {ω : Type} (os : System ω) (opts : SessionOptions)

/-- The entries of a reply as the kernel takes them off it, if it is a success. -/
def direntsOf {σ : Type} (r : Replier) (done : Replier × World σ) : Option (List Dirent) :=
  if done.1.negErr = 0 then
    (walkDirents ((done.2.mem .slot).read r.out done.1.len)).map fun found => found.map Prod.fst
  else none

/-- Where the kernel goes on: at the `off` of the last entry it got. -/
def nextOffset (off : UInt64) (page : List Dirent) : UInt64 :=
  (page.getLast?.map Dirent.off).getD off

/-- There is room for the record of the next entry, if there is one. -/
def NextFits (dir : Directory) (off : UInt64) (room : Nat) : Prop :=
  ∀ de, dir.entries[dir.seek off]? = some de →
    DirentWriter.padded (FuseDirent.codec.size + de.name.length) ≤ room

/-- The handle is open on `dir`, at any position. -/
def OpenOn (dir : Directory) (fh : FileHandle) (s : Passthrough ω) : Prop :=
  ∃ d, s.dirs fh = some d ∧ d.dir = dir

theorem seek_nextOffset {dir : Directory} {off : UInt64} {page : List Dirent}
    (front : page <+: dir.dirents.drop (dir.seek off)) :
    dir.seek (nextOffset off page) = dir.seek off + page.length := by
  unfold nextOffset
  cases ends : page.getLast? with
  | none =>
    rw [List.getLast?_eq_none_iff.mp ends]
    rfl
  | some last => exact Directory.seek_last front ends

/-- The kernel finds the entries of a directory again: their names are short. -/
theorem walkDirents_page {dir : Directory} {n : Nat} {page : List Dirent}
    (front : page <+: dir.dirents.drop n) :
    (walkDirents (page.flatMap DirentWriter.record)).map (fun found => found.map Prod.fst) =
      some page := by
  have short : ∀ d ∈ page, d.name.length < 2 ^ 32 := by
    intro d member
    have listed := List.mem_of_mem_drop (front.subset member)
    simp only [Directory.dirents, List.mem_mapIdx] at listed
    obtain ⟨i, inside, rfl⟩ := listed
    have name := dir.entries[i].short
    simp only [Directory.dirent]
    omega
  rw [(walkDirents_records_iff page).mpr short]
  simp [Function.comp_def]

/-- The exchange of the daemon with the writer: the loop, and the stream put back. -/
theorem readdir_opened {fh : FileHandle} {s : Passthrough ω} {d : DirStream}
    (opened : s.dirs fh = some d) (off : UInt64) (v : DirentWriter) :
    let loop := Passthrough.readdirLoop (d.seekdir off) off
    (Passthrough.readdir fh off s).accepted v = loop.accepted v ∧
      ((Passthrough.readdir fh off s).fill v).1 =
        ((loop.fill v).1.1,
          { s with dirs := Function.update s.dirs fh (some (loop.fill v).1.2) }) := by
  simp [Passthrough.readdir, opened, DirentScript.accepted, DirentScript.fill]

theorem readdir_page {dir : Directory} (sound : dir.failure = none) {h : FuseInHeader}
    {body : Span} {r : Replier} {req : FuseReadIn} {w : World (Passthrough ω)}
    (decoded : decodeAt (w.mem .scratch) h body = .accept (.readdir req))
    (opened : OpenOn dir req.fh w.fs)
    (fits : NextFits dir req.offset (min req.size.toNat r.cap)) :
    let done := run (World.step (Passthrough.filesystem os)) (dispatch opts h body r) w
    ∃ page, direntsOf r done = some page ∧ page <+: dir.dirents.drop (dir.seek req.offset) ∧
      (page.flatMap DirentWriter.record).length ≤ min req.size.toNat r.cap ∧
      (page = [] → dir.dirents.length ≤ dir.seek req.offset) ∧ OpenOn dir req.fh done.2.fs := by
  intro done
  obtain ⟨d, handle, rfl⟩ := opened
  have served : done = run (World.step (Passthrough.filesystem os)) (serveReaddir h r req) w := by
    simp only [done]
    rw [dispatch_leaf _ _ _ _ (decodeAt_leaf decoded), run_dispatchLeaf, decoded]
    rfl
  let span : DirentWriter := { buf := readdirBuf w r req }
  have start : span.Valid := Nat.zero_le _
  have room : span.buf.length = min req.size.toNat r.cap := Memory.length_read ..
  have packs := readdirLoop_packs (d.seekdir req.offset) req.offset span start sound
  obtain ⟨entries, filled⟩ := readdir_opened handle req.offset span
  have script : readdirScript (Passthrough.filesystem os) w h req =
      Passthrough.readdir req.fh req.offset w.fs := rfl
  have success : ((readdirScript (Passthrough.filesystem os) w h req).fill span).1.1 = .ok () := by
    rw [script, filled]
    exact packs.success
  have reply := serveReaddir_replies (Passthrough.filesystem os) w h r req success
  refine ⟨(Passthrough.readdirLoop (d.seekdir req.offset) req.offset).accepted span, ?_,
    packs.front, room ▸ DirentScript.accepted_inside _ _, ?_, ?_⟩
  · rw [direntsOf, served, if_pos reply.1, reply.2, script, entries]
    exact walkDirents_page packs.front
  · intro empty
    -- There is nothing left: the next record would have fitted.
    rw [Directory.dirents, List.length_mapIdx, ← List.getElem?_eq_none_iff]
    cases next : d.dir.entries[d.dir.seek req.offset]? with
    | none => rfl
    | some de =>
      have enough := fits de next
      have full := packs.room empty de next
      rw [room] at full
      exact absurd full (by simp only [span, Nat.zero_add]; omega)
  · refine ⟨_, ?_, packs.dir⟩
    rw [served, serveReaddir_fs, script, filled]
    exact Function.update_self ..

/-! ### One request after another -/

/-- Replies to READDIR requests on one handle, one after another, each from the `off` of the last
entry received. What happens between them leaves the handle alone. -/
inductive Listing (dir : Directory) (fh : FileHandle) :
    Passthrough ω → UInt64 → List (Option (List Dirent)) → Prop where
  | done (s : Passthrough ω) (off : UInt64) : Listing dir fh s off []
  | next {s' : Passthrough ω} {replies : List (Option (List Dirent))} (h : FuseInHeader)
      (body : Span) (r : Replier) (req : FuseReadIn) (w : World (Passthrough ω))
      {done : Replier × World (Passthrough ω)} :
      decodeAt (w.mem .scratch) h body = .accept (.readdir req) → req.fh = fh →
      NextFits dir req.offset (min req.size.toNat r.cap) →
      run (World.step (Passthrough.filesystem os)) (dispatch opts h body r) w = done →
      s'.dirs fh = done.2.fs.dirs fh →
      Listing dir fh s' (nextOffset req.offset ((direntsOf r done).getD [])) replies →
      Listing dir fh w.fs req.offset (direntsOf r done :: replies)

variable {os opts} {dir : Directory} {fh : FileHandle}

theorem OpenOn.of_dirs_eq {s s' : Passthrough ω} (opened : OpenOn dir fh s)
    (same : s'.dirs fh = s.dirs fh) : OpenOn dir fh s' := by
  obtain ⟨d, handle, on⟩ := opened
  exact ⟨d, same.trans handle, on⟩

theorem Listing.pages (sound : dir.failure = none) {s : Passthrough ω} {off : UInt64}
    {replies : List (Option (List Dirent))} (listing : Listing os opts dir fh s off replies)
    (opened : OpenOn dir fh s) :
    ∃ pages, replies = pages.map some ∧ Pages dir.dirents (dir.seek off) pages := by
  induction listing with
  | done s off => exact ⟨[], rfl, .done _⟩
  | next h body r req w decoded handle fits ran same _ ih =>
    subst handle ran
    obtain ⟨page, reply, front, -, ends, stays⟩ := readdir_page os opts sound decoded opened fits
    obtain ⟨pages, rfl, later⟩ := ih (stays.of_dirs_eq same)
    rw [reply, Option.getD_some, seek_nextOffset front] at later
    exact ⟨page :: pages, by rw [reply, List.map_cons], .page front ends later⟩

/-- Reading in pages loses nothing and repeats nothing. -/
theorem paging_exact (sound : dir.failure = none) {s : Passthrough ω} (opened : OpenOn dir fh s)
    {replies : List (Option (List Dirent))} (listing : Listing os opts dir fh s 0 replies) :
    ∃ pages, replies = pages.map some ∧ pages.flatten <+: dir.dirents ∧
      (∀ before after, pages = before ++ [] :: after → before.flatten = dir.dirents) ∧
      (dir.entries.length < pages.length → pages.flatten = dir.dirents) := by
  obtain ⟨pages, decoded, paged⟩ := listing.pages sound opened
  rw [dir.seek_zero] at paged
  refine ⟨pages, decoded, ?_, ?_, ?_⟩
  · exact paged.flatten_prefix
  · intro before after split
    subst split
    exact paged.of_empty
  · intro many
    refine paged.complete ?_
    rwa [Directory.dirents, List.length_mapIdx, Nat.zero_add]

end Requests

/-! ### Such runs exist -/

/-- A body that holds a READDIR. -/
def readdirWorld {ω : Type} (s : Passthrough ω) (req : FuseReadIn) : World (Passthrough ω) :=
  { mem := fun _ => Memory.write (fun _ => 0) 0 (FuseReadIn.codec.enc req)
    initDone := true
    fs := s }

theorem decodeAt_readdir {m : Memory} {h : FuseInHeader} {body : Span} {req : FuseReadIn}
    (code : h.opcode = Opcode.readdir.code) (plain : h.totalExtlen = 0)
    (bytes : FuseReadIn.codec.enc req <+: m.read body.base body.len) :
    decodeAt m h body = .accept (.readdir req) := by
  have args := run_inArg_plain (Filesystem.failing Errc.ioError) ⟨fun _ => m, false, ()⟩ plain bytes
  rw [decodeAt, decode, (Opcode.ofCode_eq_some_iff _ _).mpr code]
  simp only [run_map, args]
  rfl

theorem decodeAt_readdirWorld {ω : Type} (s : Passthrough ω) (req : FuseReadIn) :
    decodeAt ((readdirWorld s req).mem .scratch) { opcode := Opcode.readdir.code }
      ⟨0, (FuseReadIn.codec.enc req).length⟩ = .accept (.readdir req) := by
  refine decodeAt_readdir rfl rfl ?_
  exact ⟨[], (List.append_nil _).trans (Memory.read_write_same ..).symm⟩

/-- With room for any one entry, any number of requests can be made, in pages of that size. -/
theorem exists_listing {ω : Type} (os : System ω) {dir : Directory} (sound : dir.failure = none)
    {fh : FileHandle} (size : UInt32) (room : ∀ off, NextFits dir off size.toNat) (n : Nat)
    {s : Passthrough ω} (opened : OpenOn dir fh s) (off : UInt64) :
    ∃ pages : List (List Dirent), pages.length = n ∧
      (∀ page ∈ pages, (page.flatMap DirentWriter.record).length ≤ size.toNat) ∧
      Listing os {} dir fh s off (pages.map some) := by
  induction n generalizing s off with
  | zero => exact ⟨[], rfl, nofun, .done s off⟩
  | succ n ih =>
    let req : FuseReadIn := { fh, offset := off, size }
    let r : Replier := { cap := size.toNat }
    have whole : min req.size.toNat r.cap = size.toNat := Nat.min_self _
    have decoded := decodeAt_readdirWorld s req
    have fits : NextFits dir req.offset (min req.size.toNat r.cap) := by
      rw [whole]
      exact room off
    obtain ⟨page, reply, -, inside, -, stays⟩ := readdir_page os {} sound decoded opened fits
    rw [whole] at inside
    obtain ⟨pages, rfl, short, later⟩ := ih stays (nextOffset off page)
    refine ⟨page :: pages, rfl, List.forall_mem_cons.mpr ⟨inside, short⟩, ?_⟩
    rw [List.map_cons, ← reply]
    refine .next _ _ r req (readdirWorld s req) decoded rfl fits rfl rfl ?_
    rw [reply]
    exact later

/-- A directory with two entries, whose cookies count down. -/
def twoEntries : Directory where
  entries := [{ name := [97], ino := 5, type := 8, short := by decide },
    { name := [98, 99], ino := 6, type := 4, short := by decide }]
  cookie n := 3 - UInt64.ofNat n
  seek off := if off = 2 then 1 else if off = 1 then 2 else 0
  seek_zero := rfl
  seek_cookie := by
    intro n some inside
    simp only [List.length_cons, List.length_nil] at inside
    obtain rfl | rfl : n = 1 ∨ n = 2 := by omega
    · decide
    · decide

/-- A daemon that has it open as handle 1. -/
def twoEntriesOpen : Passthrough Unit :=
  { table := InodeTable.start 3
    dirs := Function.update (fun _ => none) 1 (some { dir := twoEntries })
    dirId := 1
    system := () }

/-- No two of its records fit 32 bytes. -/
theorem length_page_le_one {page : List Dirent}
    (inside : (page.flatMap DirentWriter.record).length ≤ 32) : page.length ≤ 1 := by
  match page with
  | [] => exact Nat.zero_le 1
  | [_] => exact Nat.le_refl 1
  | first :: second :: rest =>
    have one := DirentWriter.length_record first
    have two := DirentWriter.length_record second
    have head := DirentWriter.le_padded (FuseDirent.codec.size + first.name.length)
    have next := DirentWriter.le_padded (FuseDirent.codec.size + second.name.length)
    have size : FuseDirent.codec.size = 24 := rfl
    simp only [List.flatMap_cons, List.length_append] at inside
    omega

/-- Three requests read it in pages of 32 bytes, an entry each. -/
theorem paging_exact_two :
    ∃ pages : List (List Dirent),
      Listing (System.failing Errc.ioError) {} twoEntries 1 twoEntriesOpen 0 (pages.map some) ∧
      pages.length = 3 ∧ (∀ page ∈ pages, page.length ≤ 1) ∧
      pages.flatten = twoEntries.dirents := by
  have opened : OpenOn twoEntries 1 twoEntriesOpen := ⟨_, rfl, rfl⟩
  have each : ∀ de ∈ twoEntries.entries,
      DirentWriter.padded (FuseDirent.codec.size + de.name.length) ≤ 32 := by decide
  obtain ⟨pages, three, short, listing⟩ := exists_listing (System.failing Errc.ioError) rfl 32
    (fun _ de present => each de (List.mem_of_getElem? present)) 3 opened 0
  obtain ⟨pages', decoded, -, -, complete⟩ := paging_exact rfl opened listing
  obtain rfl := List.map_injective_iff.mpr (Option.some_injective _) decoded
  exact ⟨pages, listing, three, fun page member => length_page_le_one (short page member),
    complete (by rw [three]; decide)⟩

end Fex
