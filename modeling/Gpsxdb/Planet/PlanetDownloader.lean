import Mathlib.Tactic

/-!
`downloadLatestPlanet`, run after run, on what the run before it has left.

* `Generation`, `Received`, `LocalFile`: the planet file on the server and on the disk, whose
  bytes keep the generation they came from;
* `Transfer`, `Run`, `downloadLatestPlanet`, `history`: a run, and any number of them;
* `Ideal`, `Unmixed`: the runs that have to succeed, and the files of one generation;
* `Fits`, `complete_iff`, `unmixed_of_fits`, `recovers`: **when a run recovers**;
* `Clean`, `fits_of_clean`: a history in which every run does;
* `damaged_stays`.

A run that is killed leaves the file as a run that fails at that place.
-/

namespace Gpsxdb

namespace Planet

/-! ### Files -/

/-- A planet file of the server. -/
structure Generation where
  bytes : List UInt8
  last_modified : ℤ
deriving DecidableEq

/-- A byte on the disk, and where it came from. -/
structure Received where
  byte : UInt8
  source : Generation
deriving DecidableEq

/-- The local file.  One that does not exist counts as an empty one. -/
structure LocalFile where
  content : List Received
  mtime : ℤ

namespace LocalFile

def bytes (f : LocalFile) : List UInt8 := f.content.map Received.byte

/-- Bytes are written at the end; without any the file is not touched. -/
def append (f : LocalFile) (received : List Received) (time : ℤ) : LocalFile :=
  if received = [] then f else ⟨f.content ++ received, time⟩

lemma length_bytes (f : LocalFile) : f.bytes.length = f.content.length := List.length_map ..

lemma content_append (f : LocalFile) (received : List Received) (time : ℤ) :
    (f.append received time).content = f.content ++ received := by
  rw [append]
  split
  · rename_i hnil
    rw [hnil, List.append_nil]
  · rfl

lemma bytes_append (f : LocalFile) (received : List Received) (time : ℤ) :
    (f.append received time).bytes = f.bytes ++ received.map Received.byte := by
  rw [bytes, content_append, List.map_append, ← bytes]

end LocalFile

/-- How a transfer goes: what arrives for the byte at a place, and after how many bytes it
breaks off, if it does. -/
structure Transfer where
  arrives : ℕ → UInt8 → UInt8
  breaks : Option ℕ

namespace Transfer

/-- The rest of the remote file, as it arrives. -/
def received (t : Transfer) (g : Generation) (offset : ℕ) : List Received :=
  ((g.bytes.drop offset).zipIdx offset).map fun (b, i) => ⟨t.arrives i b, g⟩

/-- `curl -f -L -C -`: the remote bytes from the end of the local file on, and whether the
exit status is zero.  A local file that is longer than the remote one is an error. -/
def curl (t : Transfer) (g : Generation) (f : LocalFile) (time : ℤ) : LocalFile × Bool :=
  if g.bytes.length < f.content.length then (f, false)
  else
    match t.breaks with
    | none => (f.append (t.received g f.content.length) time, true)
    | some n => (f.append ((t.received g f.content.length).take n) time, false)

/-- A transfer that goes through and changes no byte. -/
structure Faultless (t : Transfer) : Prop where
  breaks : t.breaks = none
  arrives : ∀ i b, t.arrives i b = b

end Transfer

/-- `md5sum`: what it prints is never empty. -/
structure Md5 where
  sum : List UInt8 → String
  sum_ne : ∀ bytes, sum bytes ≠ ""

/-! ### Runs -/

/-- What a run meets: the answers to its two requests, the room on the disk, the file that
`curl` reads and how that goes, the time of the last write, and the first word of the
checksum file. -/
structure Run where
  remote_size : ℤ
  remote_mtime : ℤ
  avail : Option ℤ
  served : Generation
  transfer : Transfer
  time : ℤ
  expected_md5 : Option String

namespace Run

/-- What is left of the local file when it may predate the remote one. -/
def kept (r : Run) (f : LocalFile) : LocalFile :=
  if 0 < f.content.length ∧ 0 < r.remote_mtime ∧ f.mtime < r.remote_mtime then ⟨[], f.mtime⟩
  else f

/-- The room on the disk: resuming needs less. -/
def room (r : Run) (f : LocalFile) : Bool :=
  match r.avail with
  | none => true
  | some avail =>
      let needed := r.remote_size - f.content.length
      !(0 < needed && avail < needed)

end Run

/-- `downloadLatestPlanet`. -/
def downloadLatestPlanet (md5 : Md5) (r : Run) (f : LocalFile) : LocalFile × Bool :=
  if r.remote_size ≤ 0 then (f, false)
  else if !r.room (r.kept f) then (r.kept f, false)
  else
    let (f, ok) := r.transfer.curl r.served (r.kept f) r.time
    if !ok then (f, false)
    else
      match r.expected_md5 with
      | none => (f, true)
      | some expected_md5 =>
          let actual_md5 := md5.sum f.bytes
          (f, !(expected_md5 = "" || actual_md5 = "" || expected_md5 ≠ actual_md5))

/-- The local file after runs in turn. -/
def history (md5 : Md5) (f : LocalFile) (rs : List Run) : LocalFile :=
  rs.foldl (fun f r => (downloadLatestPlanet md5 r f).1) f

/-- **A run that has to succeed**: the remote file does not change, the transfer is
faultless, and the checksum is fetched. -/
structure Run.Ideal (md5 : Md5) (r : Run) : Prop where
  size : r.remote_size = r.served.bytes.length ∨ r.remote_size = -1
  mtime : r.remote_mtime = r.served.last_modified ∨ r.remote_mtime = -1
  transfer : r.transfer.Faultless
  checksum : r.expected_md5 = some (md5.sum r.served.bytes)

/-- **A file of one generation**: each byte came from it, or is the one it has there. -/
def Unmixed (gs : List Generation) (f : LocalFile) : Prop :=
  ∃ g ∈ gs, ∀ (i : ℕ) (x : Received), f.content[i]? = some x →
    x.source = g ∨ g.bytes[i]? = some x.byte

/-- **A run that fits**: the size is known, there is room, and the local file is discarded or
is a beginning of the remote one. -/
structure Run.Fits (r : Run) (f : LocalFile) : Prop where
  size : 0 < r.remote_size
  room : r.room (r.kept f) = true
  kept : (r.kept f).bytes <+: r.served.bytes

/-! ### When a run recovers -/

section Recovery

variable {md5 : Md5} {r : Run} {f : LocalFile}

/-- What arrives without a change. -/
lemma map_byte_received {t : Transfer} (ht : ∀ i b, t.arrives i b = b) (g : Generation)
    (offset : ℕ) : (t.received g offset).map Received.byte = g.bytes.drop offset := by
  rw [Transfer.received, List.map_map]
  simp only [Function.comp_def, ht]
  exact List.zipIdx_map_fst ..

lemma source_of_mem_received {t : Transfer} {g : Generation} {offset : ℕ} {x : Received}
    (hx : x ∈ t.received g offset) : x.source = g := by
  obtain ⟨p, -, rfl⟩ := List.mem_map.mp hx
  rfl

/-- What a transfer leaves: the local file with some bytes of the remote one behind it. -/
lemma curl_eq (t : Transfer) (g : Generation) (f : LocalFile) (time : ℤ) :
    ∃ received : List Received, (t.curl g f time).1.content = f.content ++ received
      ∧ ∀ x ∈ received, x.source = g := by
  rw [Transfer.curl]
  split
  · exact ⟨[], (List.append_nil _).symm, nofun⟩
  · split
    · exact ⟨_, LocalFile.content_append .., fun x => source_of_mem_received⟩
    · exact ⟨_, LocalFile.content_append .., fun x hx =>
        source_of_mem_received (List.mem_of_mem_take hx)⟩

/-- A file with a beginning of a generation and bytes received from it behind. -/
lemma unmixed_of_append {gs : List Generation} {g : Generation} (hg : g ∈ gs) {f f' : LocalFile}
    {received : List Received} (hf : f.bytes <+: g.bytes)
    (hcontent : f'.content = f.content ++ received) (hsource : ∀ x ∈ received, x.source = g) :
    Unmixed gs f' := by
  refine ⟨g, hg, fun i x hx => ?_⟩
  rw [hcontent, List.getElem?_append] at hx
  split at hx
  · rename_i hlt
    right
    have hbyte : f.bytes[i]? = some x.byte := by
      rw [LocalFile.bytes, List.getElem?_map, hx, Option.map_some]
    obtain ⟨rest, hrest⟩ := hf
    rw [← hrest]
    exact List.getElem?_append_left (List.getElem?_eq_some_iff.mp hbyte).1 ▸ hbyte
  · exact Or.inl (hsource x (List.mem_of_getElem? hx))

/-- What a run that returns true has gone through. -/
lemma of_downloadLatestPlanet (h : (downloadLatestPlanet md5 r f).2 = true) :
    0 < r.remote_size ∧ r.room (r.kept f) = true
      ∧ (r.transfer.curl r.served (r.kept f) r.time).2 = true
      ∧ (downloadLatestPlanet md5 r f).1 = (r.transfer.curl r.served (r.kept f) r.time).1 := by
  rw [downloadLatestPlanet] at h ⊢
  split at h
  · exact nomatch h
  · rename_i hsize
    split at h
    · exact nomatch h
    · rename_i hroom
      rw [if_neg hsize, if_neg hroom]
      dsimp only at h ⊢
      split at h
      · exact nomatch h
      · rename_i hok
        refine ⟨not_le.mp hsize, by simpa using hroom, by simpa using hok, ?_⟩
        rw [if_neg hok]
        split <;> rfl

/-- A faultless transfer completes a beginning of the remote file. -/
lemma curl_of_faultless (ht : r.transfer.Faultless) (hf : f.bytes <+: r.served.bytes) :
    (r.transfer.curl r.served f r.time).2 = true
      ∧ (r.transfer.curl r.served f r.time).1.bytes = r.served.bytes := by
  have hlength := hf.length_le
  rw [LocalFile.length_bytes] at hlength
  rw [Transfer.curl, if_neg (not_lt.mpr hlength), ht.breaks]
  refine ⟨rfl, ?_⟩
  rw [LocalFile.bytes_append, map_byte_received ht.arrives, ← LocalFile.length_bytes]
  exact List.prefix_iff_eq_append.mp hf

/-- **When a run that has to succeed does.** -/
lemma complete_iff (hideal : r.Ideal md5) :
    (downloadLatestPlanet md5 r f).2 = true
        ∧ (downloadLatestPlanet md5 r f).1.bytes = r.served.bytes ↔ r.Fits f := by
  constructor
  · rintro ⟨htrue, hbytes⟩
    obtain ⟨hsize, hroom, -, heq⟩ := of_downloadLatestPlanet htrue
    obtain ⟨received, hcontent, -⟩ := curl_eq r.transfer r.served (r.kept f) r.time
    rw [heq, LocalFile.bytes, hcontent, List.map_append] at hbytes
    exact ⟨hsize, hroom, ⟨_, hbytes⟩⟩
  · rintro ⟨hsize, hroom, hkept⟩
    obtain ⟨hok, hbytes⟩ := curl_of_faultless hideal.transfer hkept
    rw [downloadLatestPlanet, if_neg (not_le.mpr hsize), if_neg (by simp [hroom])]
    dsimp only
    rw [if_neg (by simp [hok]), hideal.checksum]
    exact ⟨by simp [hbytes, md5.sum_ne], hbytes⟩

/-- A run that fits mixes nothing. -/
lemma unmixed_of_fits {gs : List Generation} (hg : r.served ∈ gs) (hfits : r.Fits f)
    (htrue : (downloadLatestPlanet md5 r f).2 = true) :
    Unmixed gs (downloadLatestPlanet md5 r f).1 := by
  obtain ⟨-, -, -, heq⟩ := of_downloadLatestPlanet htrue
  obtain ⟨received, hcontent, hsource⟩ := curl_eq r.transfer r.served (r.kept f) r.time
  rw [heq]
  exact unmixed_of_append hg hfits.kept hcontent hsource

/-! ### Histories in which every run recovers -/

/-- A run of a clean history: nothing arrives changed, and a local file of another
generation predates the remote one. -/
structure Run.Clean (r : Run) (f : LocalFile) : Prop where
  arrives : ∀ i b, r.transfer.arrives i b = b
  dated : (∀ x ∈ f.content, x.source = r.served)
    ∨ 0 < r.remote_mtime ∧ f.mtime < r.remote_mtime

/-- Runs in turn that are all clean. -/
def CleanAll (md5 : Md5) (f : LocalFile) : List Run → Prop
  | [] => True
  | r :: rs => r.Clean f ∧ CleanAll md5 (downloadLatestPlanet md5 r f).1 rs

/-- **The invariant**: the beginning of one generation. -/
def Beginning (f : LocalFile) : Prop :=
  ∃ g : Generation, (∀ x ∈ f.content, x.source = g) ∧ f.bytes <+: g.bytes

lemma beginning_of_empty (h : f.content = []) : Beginning f :=
  ⟨⟨[], 0⟩, by simp [h], by simp [LocalFile.bytes, h]⟩

/-- What a clean run keeps is of the remote file. -/
lemma Beginning.kept (h : Beginning f) (hr : r.Clean f) :
    (∀ x ∈ (r.kept f).content, x.source = r.served) ∧ (r.kept f).bytes <+: r.served.bytes := by
  obtain ⟨g, hsource, hprefix⟩ := h
  rw [Run.kept]
  split
  · exact ⟨nofun, List.nil_prefix⟩
  · rename_i hdiscard
    cases hcontent : f.content with
    | nil => exact ⟨nofun, by simp [LocalFile.bytes, hcontent]⟩
    | cons x xs =>
        rcases hr.dated with hdated | hdated
        · have hx : x ∈ f.content := hcontent ▸ List.mem_cons_self
          obtain rfl := (hsource x hx).symm.trans (hdated x hx)
          exact ⟨hcontent ▸ hdated, hprefix⟩
        · exact absurd ⟨by simp [hcontent], hdated⟩ hdiscard

/-- A transfer that changes nothing goes on with the remote file. -/
lemma bytes_curl_prefix (ht : ∀ i b, r.transfer.arrives i b = b)
    (hf : f.bytes <+: r.served.bytes) :
    (r.transfer.curl r.served f r.time).1.bytes <+: r.served.bytes := by
  have happend := List.prefix_iff_eq_append.mp hf
  rw [Transfer.curl]
  split
  · exact hf
  · split
    · rw [LocalFile.bytes_append, map_byte_received ht, ← LocalFile.length_bytes, happend]
    · rename_i n _
      rw [LocalFile.bytes_append, List.map_take, map_byte_received ht, ← LocalFile.length_bytes]
      calc f.bytes ++ (r.served.bytes.drop f.bytes.length).take n
          <+: f.bytes ++ r.served.bytes.drop f.bytes.length :=
            (List.prefix_append_right_inj _).mpr (List.take_prefix ..)
        _ = r.served.bytes := happend

/-- A clean run keeps the invariant. -/
lemma beginning_step (h : Beginning f) (hr : r.Clean f) :
    Beginning (downloadLatestPlanet md5 r f).1 := by
  obtain ⟨hsource, hprefix⟩ := h.kept hr
  have hkept : Beginning (r.kept f) := ⟨r.served, hsource, hprefix⟩
  have hcurl : Beginning (r.transfer.curl r.served (r.kept f) r.time).1 := by
    obtain ⟨received, hcontent, hreceived⟩ := curl_eq r.transfer r.served (r.kept f) r.time
    refine ⟨r.served, fun x hx => ?_, bytes_curl_prefix hr.arrives hprefix⟩
    rw [hcontent] at hx
    exact (List.mem_append.mp hx).elim (hsource x) (hreceived x)
  rw [downloadLatestPlanet]
  split
  · exact h
  · split
    · exact hkept
    · dsimp only
      split
      · exact hcurl
      · split <;> exact hcurl

lemma beginning_of_cleanAll {rs : List Run} (h : Beginning f) (hrs : CleanAll md5 f rs) :
    Beginning (history md5 f rs) := by
  induction rs generalizing f with
  | nil => exact h
  | cons r rs ih => exact ih (beginning_step h hrs.1) hrs.2

/-- **After a clean history every clean run fits**, once the size is known and there is
room. -/
theorem fits_of_clean {rs : List Run} (hf : f.content = []) (hrs : CleanAll md5 f rs)
    (hr : r.Clean (history md5 f rs)) (hsize : 0 < r.remote_size)
    (hroom : r.room (r.kept (history md5 f rs)) = true) : r.Fits (history md5 f rs) :=
  ⟨hsize, hroom, ((beginning_of_cleanAll (beginning_of_empty hf) hrs).kept hr).2⟩

end Recovery

/-! ### Any history -/

/-- No file yet. -/
def absent : LocalFile := ⟨[], 0⟩

/-- A planet file, and the one after it. -/
def firstGeneration : Generation := ⟨[97, 98], 10⟩

def secondGeneration : Generation := ⟨[99, 100], 20⟩

/-- The checksums of the first file and of a damaged copy of it. -/
def md5Of : Md5 where
  sum bytes :=
    if bytes = firstGeneration.bytes then "187ef4436122d1cc2f40dc2b92f0eba0"
    else "4124bc0a9335c27f086f24ba207a4912"
  sum_ne bytes := by split <;> decide

/-- A run that finds a file on the server. -/
def runOn (g : Generation) (transfer : Transfer) (expected_md5 : Option String) : Run where
  remote_size := g.bytes.length
  remote_mtime := g.last_modified
  avail := none
  served := g
  transfer := transfer
  time := 30
  expected_md5 := expected_md5

/-- A run that has to succeed. -/
def faultlessRun : Run :=
  runOn firstGeneration ⟨fun _ b => b, none⟩ (some (md5Of.sum firstGeneration.bytes))

lemma ideal_faultlessRun : faultlessRun.Ideal md5Of :=
  ⟨Or.inl rfl, Or.inl rfl, ⟨rfl, fun _ _ => rfl⟩, rfl⟩

/-- A run that breaks off behind the first byte. -/
def brokenRun : Run := { faultlessRun with transfer := ⟨fun _ b => b, some 1⟩ }

/-- A run whose second byte arrives changed. -/
def damagedRun : Run := { faultlessRun with transfer := ⟨fun i b => if i = 1 then 97 else b, none⟩ }

/-- A run on the second file, whose checksum cannot be fetched. -/
def uncheckedRun : Run := runOn secondGeneration ⟨fun _ b => b, none⟩ none

/-- **When a run recovers**, whatever the runs before it have left: one that has to succeed
returns true with the remote file if and only if it fits, and one that fits does not return
true with a file of two generations. -/
theorem recovers (md5 : Md5) (f : LocalFile) (rs : List Run) (r : Run) :
    (r.Ideal md5 → ((downloadLatestPlanet md5 r (history md5 f rs)).2 = true
        ∧ (downloadLatestPlanet md5 r (history md5 f rs)).1.bytes = r.served.bytes
      ↔ r.Fits (history md5 f rs)))
    ∧ (r.Fits (history md5 f rs) → (downloadLatestPlanet md5 r (history md5 f rs)).2 = true →
      Unmixed ((rs ++ [r]).map Run.served) (downloadLatestPlanet md5 r (history md5 f rs)).1) :=
  ⟨complete_iff, unmixed_of_fits (List.mem_map_of_mem (by simp))⟩

theorem recovers_broken :
    (downloadLatestPlanet md5Of faultlessRun (history md5Of absent [brokenRun])).2 = true
      ∧ (downloadLatestPlanet md5Of faultlessRun (history md5Of absent [brokenRun])).1.bytes
        = firstGeneration.bytes
      ∧ Unmixed [firstGeneration, firstGeneration]
        (downloadLatestPlanet md5Of faultlessRun (history md5Of absent [brokenRun])).1 := by
  have hfits : faultlessRun.Fits (history md5Of absent [brokenRun]) :=
    ⟨by decide, rfl, ⟨[98], rfl⟩⟩
  obtain ⟨hcomplete, hunmixed⟩ := recovers md5Of absent [brokenRun] faultlessRun
  obtain ⟨htrue, hbytes⟩ := (hcomplete ideal_faultlessRun).mpr hfits
  exact ⟨htrue, hbytes, hunmixed hfits htrue⟩

/-- **A damaged file stays**: it is as long as the remote one, so `curl` changes nothing.  And
behind a beginning of the first file that was written after the `Last-Modified` of the second
one, `curl` puts the rest of the second. -/
theorem damaged_stays : faultlessRun.Ideal md5Of
    ∧ (downloadLatestPlanet md5Of faultlessRun (history md5Of absent [damagedRun])).2 = false
    ∧ (downloadLatestPlanet md5Of uncheckedRun (history md5Of absent [brokenRun])).2 = true
    ∧ ¬ Unmixed [firstGeneration, secondGeneration]
      (downloadLatestPlanet md5Of uncheckedRun (history md5Of absent [brokenRun])).1 := by
  refine ⟨⟨Or.inl rfl, Or.inl rfl, ⟨rfl, fun _ _ => rfl⟩, rfl⟩, by decide, by decide, ?_⟩
  rintro ⟨g, hg, hmixed⟩
  rcases List.mem_pair.mp hg with rfl | rfl
  · have hlast := hmixed 1 ⟨100, secondGeneration⟩ (by decide)
    exact absurd hlast (by decide)
  · have hfirst := hmixed 0 ⟨97, firstGeneration⟩ (by decide)
    exact absurd hfirst (by decide)

end Planet

end Gpsxdb
