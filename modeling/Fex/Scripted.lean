import Fex.Compound

/-!
# A scripted daemon

A filesystem whose state is the list of reply lengths it is to produce, one for each
callback; 0 stands for an error. It realises every length a `ReplyShape` allows
(`scripted_serve`), which is what shows that a property of all daemons can fail.
-/
namespace Fex

open Foundation Program

namespace Scripted

/-- Succeed with `value`, unless the next length is 0. -/
def answer {α : Type} (value : Nat → α) : List Nat → Except Errc α × List Nat
  | [] => (.error Errc.ioError, [])
  | n :: rest => (if n = 0 then .error Errc.ioError else .ok (value n), rest)

/-- One directory record that takes `n` bytes. -/
def dirent (n : Nat) : Dirent :=
  { name := List.replicate (n - FuseDirent.codec.size) 0, ino := 0, off := 0, type := 0 }

def listing (script : List Nat) : DirentScript (Except Errc Unit × List Nat) :=
  match script with
  | [] => pure (.error Errc.ioError, [])
  | n :: rest =>
    if n = 0 then pure (.error Errc.ioError, rest)
    else do
      let _ ← Program.ask (dirent n)
      pure (.ok (), rest)

end Scripted

/-- The daemon that follows its script. -/
def scripted : Filesystem (List Nat) where
  init info s := Scripted.answer (fun _ => info) s
  lookupRoot _ s := Scripted.answer (fun _ => {}) s
  lookupx _ _ _ s := Scripted.answer (fun _ => {}) s
  forget _ _ s := s.tail
  forgetMulti _ s := s.tail
  statx _ _ s := Scripted.answer (fun _ => {}) s
  setstatx _ _ _ _ s := Scripted.answer (fun _ => {}) s
  mkobjx _ _ _ s := Scripted.answer (fun _ => {}) s
  unlink _ _ _ s := Scripted.answer (fun _ => ()) s
  rmdir _ _ _ s := Scripted.answer (fun _ => ()) s
  rename _ _ _ _ _ _ s := Scripted.answer (fun _ => ()) s
  link _ _ _ _ s := Scripted.answer (fun _ => ()) s
  readlink _ _ s := Scripted.answer (fun n => List.replicate n 0) s
  openFile _ _ _ s := Scripted.answer (fun _ => {}) s
  release _ _ _ _ s := Scripted.answer (fun _ => ()) s
  read _ _ _ _ span s := (((Scripted.answer id s).1, .of span), s.tail)
  write _ _ _ _ _ s := Scripted.answer id s
  fallocate _ _ _ _ _ _ s := Scripted.answer (fun _ => ()) s
  statfs _ _ s := Scripted.answer (fun _ => {}) s
  opendir _ _ s := Scripted.answer (fun _ => {}) s
  releasedir _ _ _ s := Scripted.answer (fun _ => ()) s
  readdir _ _ _ _ s := Scripted.listing s
  getxattr _ _ _ span s := (((Scripted.answer id s).1, .of span), s.tail)
  setxattr _ _ _ _ _ s := Scripted.answer (fun _ => ()) s
  listxattr _ _ span s := (((Scripted.answer id s).1, .of span), s.tail)
  removexattr _ _ _ s := Scripted.answer (fun _ => ()) s

/-- The bytes a filled `Replier` contributes to a reply. -/
def Replier.effective (r : Replier) : Nat := if r.negErr ≠ 0 then 0 else r.len

section Serve

variable (r : Replier) {w : World (List Nat)} {n : Nat} {rest : List Nat}

/-- The program contributes `n` bytes and leaves the script alone. -/
def Contributes (n : Nat) (p : Handler Replier) : Prop :=
  ∀ w : World (List Nat), (run (World.step scripted) p w).1.effective = n ∧
    (run (World.step scripted) p w).2.fs = w.fs

theorem contributes_error (e : Errc) : Contributes 0 (pure (replyError r e)) := by
  intro w
  exact ⟨ite_self _, rfl⟩

theorem contributes_data (len : Nat) :
    Contributes len (pure { r with negErr := 0, len := len }) := by
  intro w
  exact ⟨if_neg (fun failed => failed rfl), rfl⟩

theorem contributes_payload (p : Bytes) (fits : p.length ≤ r.cap) :
    Contributes p.length (replyPayload r p) := by
  intro w
  rw [replyPayload, if_neg (Nat.not_lt.mpr fits)]
  cases p with
  | nil => exact contributes_data r 0 w
  | cons b bs => exact contributes_data r (b :: bs).length _

/-- Every struct of the fixed shape comes out whole. -/
theorem contributes_pod {α : Type} (codec : Codec α) (pod : α) (nonzero : n ≠ 0)
    (allows : (ReplyShape.fixed codec.size).Allows r.cap n) :
    Contributes n (replyPod codec r pod) := by
  rcases allows with zero | ⟨rfl, fits⟩
  · exact absurd zero nonzero
  · have whole := contributes_payload r (codec.enc pod) (by simpa using fits)
    rwa [codec.length_enc] at whole

/-- Passing on the scripted answer of a callback. -/
theorem contributes_answer {α : Type} {script : List Nat} (value : Nat → α)
    (pack : α → Handler Replier) (packs : n ≠ 0 → Contributes n (pack (value n)))
    (next : script = n :: rest) :
    Contributes n (withAnswer r (Scripted.answer value script).1 pack) := by
  subst next
  by_cases zero : n = 0
  · subst zero
    exact contributes_error r Errc.ioError
  · -- A nonzero length is a success of that length.
    simp only [Scripted.answer, if_neg zero]
    exact packs zero

theorem contributes_filled (want : Nat) {script : List Nat} (fits : n ≤ want)
    (next : script = n :: rest) :
    Contributes n (replyFilled r want (Scripted.answer id script).1) := by
  refine contributes_answer r id _ (fun _ => ?_) next
  dsimp only [id]
  rw [Nat.min_eq_left fits]
  exact contributes_data r n

theorem contributes_size {script : List Nat}
    (allows : (ReplyShape.fixed FuseGetxattrOut.codec.size).Allows r.cap n)
    (next : script = n :: rest) : Contributes n (replySize r (Scripted.answer id script).1) :=
  contributes_answer r id _ (fun nonzero => contributes_pod r _ _ nonzero allows) next

theorem scripted_answer {α : Type} (value : Nat → α) (pack : α → Handler Replier)
    (packs : n ≠ 0 → Contributes n (pack (value n))) (next : w.fs = n :: rest) :
    let rv := Scripted.answer value w.fs
    (run (World.step scripted) (withAnswer r rv.1 pack) { w with fs := rv.2 }).1.effective = n ∧
      (run (World.step scripted) (withAnswer r rv.1 pack) { w with fs := rv.2 }).2.fs = rest := by
  obtain ⟨len, script⟩ := contributes_answer r value pack packs next
    { w with fs := (Scripted.answer value w.fs).2 }
  refine ⟨len, script.trans ?_⟩
  simp only [next, Scripted.answer]

/-- The listing's one record takes just the bytes asked for. -/
theorem listing_fill (buf : Bytes) (rest : List Nat) (nonzero : n ≠ 0) (whole : 8 ∣ n)
    (record : FuseDirent.codec.size ≤ n) (fits : n ≤ buf.length) :
    ((Scripted.listing (n :: rest)).fill { buf := buf }).1 = (.ok (), rest) ∧
      ((Scripted.listing (n :: rest)).fill { buf := buf }).2.pos = n := by
  have size :
      DirentWriter.padded (FuseDirent.codec.size + (Scripted.dirent n).name.length) = n := by
    simp only [Scripted.dirent, List.length_replicate, DirentWriter.padded_eq]
    omega
  have added : (DirentWriter.add { buf := buf } (Scripted.dirent n)).2.pos = n := by
    unfold DirentWriter.add
    dsimp only
    rw [sizeSub_of_le (Nat.zero_le _), DirentWriter.length_record, size, if_neg (by omega),
      Nat.zero_add]
  simp only [Scripted.listing, if_neg nonzero, DirentScript.fill, run_bind, run_ask, run_pure,
    added, and_self]

theorem contributes_listing {script : List Nat} {size : Nat} (buf : Bytes)
    (length : buf.length = min size r.cap) (allows : (ReplyShape.dirents size).Allows r.cap n)
    (next : script = n :: rest) :
    let filled := (Scripted.listing script).fill { buf := buf }
    Contributes n (withAnswer r filled.1.1 fun _ =>
      return { r with negErr := 0, len := filled.2.pos }) ∧ filled.1.2 = rest := by
  subst next
  by_cases zero : n = 0
  · subst zero
    exact ⟨contributes_error r Errc.ioError, rfl⟩
  · rcases allows with empty | ⟨whole, record, fits⟩
    · exact absurd empty zero
    · obtain ⟨verdict, pos⟩ := listing_fill buf rest zero whole record (length ▸ fits)
      dsimp only
      rw [verdict, pos]
      exact ⟨contributes_data r n, rfl⟩

/-- The daemon produces whatever length the request's reply may have. -/
theorem scripted_serve (opts : SessionOptions) (h : FuseInHeader) (q : Request)
    (next : w.fs = n :: rest) (allows : q.shape.Allows r.cap n) :
    (run (World.step scripted) (serve opts h r q) w).1.effective = n ∧
      (run (World.step scripted) (serve opts h r q) w).2.fs = rest := by
  cases q with
  | lookupRoot | lookupx | mkobjx | statx | setstatx | openFile | opendir | statfs | write =>
    exact scripted_answer r _ _ (fun nonzero => contributes_pod r _ _ nonzero allows) next
  | rename2 | link | release | fallocate | releasedir | setxattr | removexattr =>
    exact scripted_answer r _ _ (fun nonzero => absurd allows nonzero) next
  | unlink isRmdir name =>
    cases isRmdir with
    | true => exact scripted_answer r _ _ (fun nonzero => absurd allows nonzero) next
    | false => exact scripted_answer r _ _ (fun nonzero => absurd allows nonzero) next
  | readlink =>
    refine scripted_answer r _ _ (fun _ => ?_) next
    have fits : (List.replicate n (0 : UInt8)).length ≤ r.cap :=
      List.length_replicate.trans_le allows
    have whole := contributes_payload r _ fits
    rwa [List.length_replicate] at whole
  -- Neither has an answer, but each takes its line of the script.
  | forget | batchForget =>
    obtain rfl : n = 0 := allows
    exact ⟨ite_self _, congrArg List.tail next⟩
  | init req =>
    refine scripted_answer r _ _ (fun nonzero => ?_) next
    split
    · exact contributes_pod r _ _ nonzero allows
    · exact fun _ => contributes_pod r _ _ nonzero allows _
  | read req =>
    -- READ reports the scripted length for a span at least as long.
    have filled := contributes_filled r (min req.size.toNat r.cap) allows next
    exact ⟨(filled _).1, (filled _).2.trans (congrArg List.tail next)⟩
  | readdir req =>
    obtain ⟨listed, script⟩ := contributes_listing r
      ((w.mem .slot).read (r.out + 0) (min req.size.toNat r.cap)) (Memory.length_read ..) allows
      next
    exact ⟨(listed _).1, (listed _).2.trans script⟩
  | getxattr args =>
    obtain ⟨req, name⟩ := args
    unfold Request.shape at allows
    unfold serve serveGetxattr
    dsimp only at allows ⊢
    split at allows
    next query =>
      have size := contributes_size r allows next
      rw [if_pos query]
      exact ⟨(size _).1, (size _).2.trans (congrArg List.tail next)⟩
    next query =>
      have filled := contributes_filled r (min req.size.toNat r.cap) allows next
      rw [if_neg query]
      exact ⟨(filled _).1, (filled _).2.trans (congrArg List.tail next)⟩
  | listxattr size =>
    unfold Request.shape at allows
    unfold serve serveListxattr
    dsimp only at allows ⊢
    split at allows
    next query =>
      have size := contributes_size r allows next
      rw [if_pos query]
      exact ⟨(size _).1, (size _).2.trans (congrArg List.tail next)⟩
    next query =>
      have filled := contributes_filled r (min size.toNat r.cap) allows next
      rw [if_neg query]
      exact ⟨(filled _).1, (filled _).2.trans (congrArg List.tail next)⟩

/-- The script of a decoded body: a length is only taken by a callback. -/
def Decoded.schedule (n : Nat) (rest : List Nat) : Decoded → List Nat
  | accept _ => n :: rest
  | reject _ | ignore => rest

theorem scripted_leaf (opts : SessionOptions) (h : FuseInHeader) (body : Span)
    (next : w.fs = (decodeAt (w.mem .scratch) h body).schedule n rest)
    (allows : (decodeAt (w.mem .scratch) h body).shape.Allows r.cap n) :
    (run (World.step scripted) (dispatchLeaf opts h body r) w).1.effective = n ∧
      (run (World.step scripted) (dispatchLeaf opts h body r) w).2.fs = rest := by
  rw [run_dispatchLeaf]
  cases decoded : decodeAt (w.mem .scratch) h body with
  | accept q =>
    rw [decoded] at next allows
    exact scripted_serve r opts h q next allows
  -- Without a callback the script stays as it is.
  | reject e =>
    rw [decoded] at next allows
    obtain rfl : n = 0 := allows
    exact ⟨ite_self _, next⟩
  | ignore =>
    rw [decoded] at next allows
    obtain rfl : n = 0 := allows
    exact ⟨ite_self _, next⟩

end Serve

/-- The reply cursor moves by the out-header and what the sub-reply contributes, counted
in the 32 bits of the out-header's length. -/
theorem Round.next_outP {σ : Type} (fs : Filesystem σ) (dispatch : Dispatcher) (r : Replier)
    (t : Round σ) :
    (t.next fs dispatch r).outP = t.start.outP +
      (FuseOutHeader.codec.size + (t.result fs dispatch r).1.effective) % 2 ^ 32 := by
  simp only [Round.next, Round.outHeader, subOutHeader, UInt32.toNat_ofNat']
  rfl

/-- A round of the scripted daemon: the reply cursor moves by the scripted length. -/
theorem scripted_round (opts : SessionOptions) (r : Replier) (t : Round (List Nat)) {n : Nat}
    {rest : List Nat}
    (next : t.start.world.fs = (t.frame.decoded (t.start.world.mem .scratch)).schedule n rest)
    (allows : (t.frame.decoded (t.start.world.mem .scratch)).shape.Allows
      (r.cap - t.start.outP - FuseOutHeader.codec.size) n) :
    (t.next scripted (dispatchLeaf opts) r).outP =
        t.start.outP + (FuseOutHeader.codec.size + n) % 2 ^ 32 ∧
      (t.next scripted (dispatchLeaf opts) r).world.fs = rest := by
  rw [← Round.decoded_header] at next allows
  obtain ⟨len, script⟩ := scripted_leaf (t.replier r) opts t.header t.frame.payload next allows
  rw [← Round.handler_leaf] at len script
  refine ⟨?_, script⟩
  rw [Round.next_outP, Round.result, len]

end Fex
