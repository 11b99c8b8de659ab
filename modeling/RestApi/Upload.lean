import Mathlib.Data.List.Infix
import RestApi.Search
import RestApi.World

namespace RestApi.Upload
open Query

-- What the uploader calls of the Go library: http.DetectContentType,
-- mime.ExtensionsByType and the case folding of letters beyond ASCII.
structure Media where
  detectContentType : List UInt8 → String
  extensionsByType : String → Option (List String)
  foldRune : Char → Char
  text : Library

structure ValidationRules where
  maxSize : Int
  allowedMIMEs : List String

-- The header stands for the bytes it opens. `file` is the offset of the open
-- handle; it is opened lazily.
structure ParsedFile where
  header : Option (List UInt8)
  filename : String
  size : Int
  contentType : String
  file : Option Nat := none
  deriving DecidableEq, Repr

inductive UploadErr where
  | noFile
  | maxSize (maxBytes receivedBytes : Int)
  | detect
  | mimeTypes (claimed actual : String) (allowed : List String)
  | invalid (details : String)
  | extension (ext detected : String) (expected : List String)
  deriving DecidableEq, Repr

-- Whether the calls on the underlying file succeed.
structure Disk where
  opens : Bool
  seeks : Bool
  reads : Bool
  resets : Bool

def extOf : List Char → List Char → String
  | [],_ => ""
  | c :: rest,seen =>
      if c = '/' then "" else if c = '.' then String.ofList (c :: seen) else extOf rest (c :: seen)

-- path.Ext: from the last dot of the last element.
def pathExt (path : String) : String := extOf path.toList.reverse []

def ParsedFile.ext (f : ParsedFile) : String := pathExt f.filename
def ParsedFile.noFile (f : ParsedFile) : Bool := f.header.isNone

section
variable (media : Media)

def equalFold (a b : String) : Bool :=
  let fold := fun c : Char => if c.toNat < 128 then c.toLower else media.foldRune c
  a.toList.map fold = b.toList.map fold

-- strings.Cut(mime, ";"), the part before.
def mimeBase (mime : String) : String := String.ofList (mime.toList.takeWhile (· ≠ ';'))

def ValidationRules.isMIMEAllowed (rules : ValidationRules) (mime : String) : Bool :=
  rules.allowedMIMEs.any fun allowed => equalFold media (mimeBase mime) allowed

def ParsedFile.open (disk : Disk) (f : ParsedFile) : Option ParsedFile :=
  match f.header with
  | none => none
  | some _ => if disk.opens then some {f with file := some 0} else none

-- What a reader of the file gets from here on, such as the storage's Put.
def ParsedFile.unread (f : ParsedFile) : List UInt8 := (f.header.getD []).drop (f.file.getD 0)

-- An empty file is not passed to the detection. The handle ends where it was.
def detectMIME (disk : Disk) (f : ParsedFile) : Option (String × ParsedFile) :=
  match if f.file.isNone then f.open disk else some f with
  | none => none
  | some f =>
    if !disk.seeks || !disk.reads || !disk.resets then none
    else
      let buf := f.unread.take 512
      some (if buf = [] then "application/octet-stream" else media.detectContentType buf,f)

def mimeTypesMatch (claimed actual : String) : Bool :=
  equalFold media (trimSpace (mimeBase claimed)) (trimSpace (mimeBase actual))

def officeExtensions : List (String × List String) :=
  [(".xlsx",["application/zip","application/vnd.openxmlformats-officedocument.spreadsheetml.sheet",
    "application/octet-stream"]),
  (".docx",["application/zip","application/vnd.openxmlformats-officedocument.wordprocessingml.document",
    "application/octet-stream"]),
  (".pptx",["application/zip","application/vnd.openxmlformats-officedocument.presentationml.presentation",
    "application/octet-stream"])]

def isOfficeDocument (ext actualType : String) : Bool :=
  match officeExtensions.lookup (toLower media.text ext) with
  | none => false
  | some allowedMimes =>
      allowedMimes.any fun allowedMime => decide (allowedMime.toList <:+: actualType.toList)

def fallback : List (String × List String) :=
  [("image/webp",[".webp"]),("image/svg+xml",[".svg"]),("application/wasm",[".wasm"]),
    ("font/woff",[".woff"]),("font/woff2",[".woff2"]),("application/octet-stream",[])]

def getExpectedExtensions (mimeType : String) : List String :=
  match media.extensionsByType (mimeBase mimeType) with
  | some extensions => extensions
  | none => (fallback.lookup (mimeBase mimeType)).getD []

def verifyExtensionMatchesMIME (ext detectedMIME : String) : Except UploadErr Unit :=
  let expected := getExpectedExtensions media detectedMIME
  if expected = [] || expected.any (equalFold media ext) then .ok ()
  else .error (.extension ext detectedMIME expected)

def validateFile (disk : Disk) (f : Option ParsedFile) (rules : ValidationRules) :
    Except UploadErr ParsedFile :=
  match f with
  | none => .error .noFile
  | some f =>
    if f.noFile then .error .noFile
    else if 0 < rules.maxSize ∧ rules.maxSize < f.size then .error (.maxSize rules.maxSize f.size)
    else if rules.allowedMIMEs = [] then .ok f
    else
      let claimedType := f.contentType
      match detectMIME media disk f with
      | none => .error .detect
      | some (actualType,f) =>
        -- An Office container passes on the type the client claims.
        if isOfficeDocument media f.ext actualType then
          if !rules.isMIMEAllowed media claimedType && !rules.isMIMEAllowed media actualType then
            .error (.mimeTypes claimedType actualType rules.allowedMIMEs)
          else .ok f
        else if claimedType ≠ "" ∧ !mimeTypesMatch media claimedType actualType then
          .error (.invalid "what a sus file")
        else if !rules.isMIMEAllowed media actualType then
          .error (.mimeTypes claimedType actualType rules.allowedMIMEs)
        else (verifyExtensionMatchesMIME media f.ext actualType).map fun _ => f

structure FileHeader where
  filename : String
  size : Int
  contentType : String
  content : List UInt8

def newParsedFile : Option FileHeader → ParsedFile
  | none => ⟨none,"",0,"",none⟩
  | some fh => ⟨some fh.content,fh.filename,fh.size,fh.contentType,none⟩

inductive HandlerErr where
  | notMultipart
  | imageRequired
  | upload (err : UploadErr)
  | rbacContextNotFound
  | nilUserID
  deriving DecidableEq, Repr

def imageMIMEs : List String := ["image/jpeg","image/png","image/webp"]
def imageRules : ValidationRules := ⟨2 * 2 ^ 20,imageMIMEs⟩

-- The handler up to the service call, with the file the service will store.
def changeProfilePicture (disk : Disk) (isMultipart : Bool) (formFile : Option FileHeader)
    (ctx : Ctx) : Except HandlerErr (Request × ParsedFile) :=
  if !isMultipart then .error .notMultipart
  else match formFile with
    | none => .error .imageRequired
    | some fh =>
      match validateFile media disk (some (newParsedFile (some fh))) imageRules with
      | .error err => .error (.upload err)
      | .ok file =>
        match ctx.rbac with
        | none => .error .rbacContextNotFound
        | some authz =>
          match authz.userID with
          | none => .error .nilUserID
          | some userID => .ok (.changeProfilePicture ctx userID file.ext,file)

end

section Accepted
variable {media : Media} {disk : Disk} {rules : ValidationRules} {f after : ParsedFile}

-- The type ValidateFile works with: it looks from where the handle stands, and at
-- nothing when there is nothing left.
def sniffed (media : Media) (f : ParsedFile) : String :=
  if f.unread.take 512 = [] then "application/octet-stream"
  else media.detectContentType (f.unread.take 512)

-- The type of the file's first bytes.
def detected (media : Media) (f : ParsedFile) : String :=
  media.detectContentType ((f.header.getD []).take 512)

def ParsedFile.opened (f : ParsedFile) : ParsedFile := {f with file := some (f.file.getD 0)}

-- The type is looked at: there is a file, not too large, and it can be read.
structure Checked (disk : Disk) (rules : ValidationRules) (f : ParsedFile) : Prop where
  present : f.header.isSome = true
  small : ¬(0 < rules.maxSize ∧ rules.maxSize < f.size)
  opens : f.file.isNone = true → disk.opens = true
  serves : disk.seeks = true ∧ disk.reads = true ∧ disk.resets = true

-- What passes the type check: an Office container under the type it claims, or
-- whatever has an allowed type for the bytes left, with a name and a claim that fit
-- unless it is an Office container.
inductive Passes (media : Media) (rules : ValidationRules) (f : ParsedFile) : Prop where
  | container (office : isOfficeDocument media f.ext (sniffed media f) = true)
      (claimed : rules.isMIMEAllowed media f.contentType = true)
  | allowed (stands : rules.isMIMEAllowed media (sniffed media f) = true)
      (fits : isOfficeDocument media f.ext (sniffed media f) = true ∨
        (f.contentType = "" ∨ mimeTypesMatch media f.contentType (sniffed media f) = true) ∧
          verifyExtensionMatchesMIME media f.ext (sniffed media f) = .ok ())

theorem detectMIME_opened (present : f.header.isSome = true) :
    detectMIME media disk f =
    if (f.file.isNone = true → disk.opens = true) ∧ disk.seeks = true ∧ disk.reads = true ∧
      disk.resets = true
    then some (sniffed media f,f.opened) else none := by
  obtain ⟨bytes,header⟩ := Option.isSome_iff_exists.mp present
  have opened : (if f.file.isNone then f.open disk else some f) =
      if f.file.isNone = true → disk.opens = true then some f.opened else none := by
    cases handle : f.file with
    | none =>
        simp only [Option.isNone_none,if_true,ParsedFile.open,header,true_imp_iff,ParsedFile.opened,
          handle]
        rfl
    | some offset =>
        simp only [Option.isNone_some,Bool.false_eq_true,if_false,false_imp_iff,if_true,
          ParsedFile.opened,handle,Option.getD_some]
        rw [← handle]
  have unread : f.opened.unread = f.unread := rfl
  unfold detectMIME
  rw [opened]
  by_cases opens : f.file.isNone = true → disk.opens = true
  · rw [if_pos opens]
    dsimp only
    by_cases serves : disk.seeks = true ∧ disk.reads = true ∧ disk.resets = true
    · have ready := And.intro opens serves
      obtain ⟨seeks,reads,resets⟩ := serves
      rw [if_pos ready]
      simp only [seeks,reads,resets,Bool.not_true,Bool.or_self,Bool.false_eq_true,if_false,unread]
      rfl
    · have fails : (!disk.seeks || !disk.reads || !disk.resets) = true := by
        simp only [Bool.or_eq_true,Bool.not_eq_true']
        simp only [not_and,Bool.not_eq_true] at serves
        cases seeks : disk.seeks with
        | false => exact .inl (.inl rfl)
        | true =>
            cases reads : disk.reads with
            | false => exact .inl (.inr rfl)
            | true => exact .inr (serves seeks reads)
      rw [if_pos fails,if_neg fun ready => serves ready.2]
  · rw [if_neg opens,if_neg fun ready => opens ready.1]

-- The two branches after the type has been found.
theorem typed_ok : (if isOfficeDocument media f.ext (sniffed media f) = true then
      if (!rules.isMIMEAllowed media f.contentType && !rules.isMIMEAllowed media
        (sniffed media f)) = true then
        .error (.mimeTypes f.contentType (sniffed media f) rules.allowedMIMEs)
      else .ok f.opened
    else if f.contentType ≠ "" ∧ (!mimeTypesMatch media f.contentType (sniffed media f)) =
      true then .error (.invalid "what a sus file")
    else if (!rules.isMIMEAllowed media (sniffed media f)) = true then
      .error (.mimeTypes f.contentType (sniffed media f) rules.allowedMIMEs)
    else (verifyExtensionMatchesMIME media f.ext (sniffed media f)).map fun _ =>
      f.opened) = .ok after ↔
      Passes media rules f ∧ after = f.opened := by
  constructor
  · intro accepted
    split at accepted
    · rename_i office
      split at accepted
      · cases accepted
      · rename_i either
        cases accepted
        refine ⟨?_,rfl⟩
        cases claimed : rules.isMIMEAllowed media f.contentType with
        | true => exact .container office claimed
        | false => exact .allowed (by simpa [claimed] using either) (.inl office)
    · split at accepted
      · cases accepted
      · rename_i agrees
        split at accepted
        · cases accepted
        · rename_i stands
          cases verified : verifyExtensionMatchesMIME media f.ext (sniffed media f) with
          | error err =>
              rw [verified] at accepted
              cases accepted
          | ok _ =>
              rw [verified] at accepted
              cases accepted
              refine ⟨.allowed (by simpa using stands) (.inr ⟨?_,verified⟩),rfl⟩
              by_cases blank : f.contentType = ""
              · exact .inl blank
              · exact .inr (by simpa [blank] using agrees)
  · rintro ⟨passes,rfl⟩
    cases passes with
    | container office claimed => simp [office,claimed]
    | allowed stands fits =>
        split
        · simp [stands]
        · rename_i plain
          obtain ⟨agrees,named⟩ := fits.resolve_left plain
          have honest : ¬(f.contentType ≠ "" ∧
              (!mimeTypesMatch media f.contentType (sniffed media f)) = true) := by
            rintro ⟨claimed,differs⟩
            rw [agrees.resolve_left claimed] at differs
            cases differs
          rw [if_neg honest,if_neg (by simp [stands]),named]
          rfl

theorem validateFile_ok (some' : rules.allowedMIMEs ≠ []) :
    validateFile media disk (some f) rules = .ok after ↔ Checked disk rules f ∧
      Passes media rules f ∧ after = f.opened := by
  unfold validateFile
  dsimp only
  by_cases present : f.header.isSome = true
  · have here : f.noFile = false := by simpa [ParsedFile.noFile] using present
    rw [here,detectMIME_opened present]
    by_cases small : 0 < rules.maxSize ∧ rules.maxSize < f.size
    · simp only [if_pos small,Bool.false_eq_true,if_false,reduceCtorEq,false_iff,not_and]
      exact fun checked => absurd small checked.small
    · by_cases ready : (f.file.isNone = true → disk.opens = true) ∧ disk.seeks = true ∧
        disk.reads = true ∧ disk.resets = true
      · have checked : Checked disk rules f := ⟨present,small,ready.1,ready.2⟩
        have name : f.opened.ext = f.ext := rfl
        simp only [if_neg small,if_neg some',if_pos ready,Bool.false_eq_true,if_false,name,checked,
          true_and]
        exact typed_ok
      · simp only [if_neg small,if_neg some',if_neg ready,Bool.false_eq_true,if_false,reduceCtorEq,
          false_iff,not_and]
        exact fun checked => absurd ⟨checked.opens,checked.serves⟩ ready
  · have absent : f.noFile = true := by simpa [ParsedFile.noFile] using present
    simp only [absent,if_true,reduceCtorEq,false_iff,not_and]
    exact fun checked => absurd checked.present present

-- The inputs that reach the defect, although the type of the file is not allowed:
-- an Office container that claims an allowed type, and a file that is empty or not
-- read from its start and is taken for something else.
inductive Mistaken (media : Media) (disk : Disk) (rules : ValidationRules)
    (f : ParsedFile) : Prop where
  | container (checked : Checked disk rules f)
      (foreign : rules.isMIMEAllowed media (detected media f) = false)
      (office : isOfficeDocument media f.ext (sniffed media f) = true)
      (claimed : rules.isMIMEAllowed media f.contentType = true)
  | elsewhere (checked : Checked disk rules f)
      (foreign : rules.isMIMEAllowed media (detected media f) = false)
      (moved : f.header = some [] ∨ f.file.getD 0 ≠ 0)
      (stands : rules.isMIMEAllowed media (sniffed media f) = true)
      (fits : isOfficeDocument media f.ext (sniffed media f) = true ∨
        (f.contentType = "" ∨ mimeTypesMatch media f.contentType (sniffed media f) = true) ∧
        verifyExtensionMatchesMIME media f.ext (sniffed media f) = .ok ())

-- A file that is read from its start is taken for what it is.
theorem sniffed_detected (present : f.header.isSome = true)
    (still : ¬(f.header = some [] ∨ f.file.getD 0 ≠ 0)) : sniffed media f = detected media f := by
  obtain ⟨bytes,header⟩ := Option.isSome_iff_exists.mp present
  obtain ⟨filled,start⟩ := not_or.mp still
  have whole : f.unread = bytes := by simp [ParsedFile.unread,header,not_not.mp start]
  have some' : bytes ≠ [] := by
    rintro rfl
    exact filled header
  rw [sniffed,detected,whole,header,if_neg (by simpa using some')]
  rfl

theorem accepted_allowed (some' : rules.allowedMIMEs ≠ []) :
    (∀ after, validateFile media disk (some f) rules = .ok after →
      rules.isMIMEAllowed media (detected media f) = true) ↔
      ¬Mistaken media disk rules f := by
  simp only [validateFile_ok some']
  constructor
  · intro sound mistaken
    have accepted : Checked disk rules f ∧ Passes media rules f ∧
        rules.isMIMEAllowed media (detected media f) = false := by
      cases mistaken with
      | container checked foreign office claimed =>
          exact ⟨checked,.container office claimed,foreign⟩
      | elsewhere checked foreign _ stands fits => exact ⟨checked,.allowed stands fits,foreign⟩
    obtain ⟨checked,passes,foreign⟩ := accepted
    rw [sound _ ⟨checked,passes,rfl⟩] at foreign
    cases foreign
  · rintro unmistaken after ⟨checked,passes,rfl⟩
    by_contra refused
    have foreign := Bool.eq_false_iff.mpr refused
    cases passes with
    | container office claimed => exact unmistaken (.container checked foreign office claimed)
    | allowed stands fits =>
        refine unmistaken (.elsewhere checked foreign ?_ stands fits)
        by_contra still
        rw [sniffed_detected checked.present still,foreign] at stands
        cases stands

end Accepted

theorem changeProfilePicture_ok {media : Media} {disk : Disk} {formFile : Option FileHeader} :
    changeProfilePicture media disk isMultipart formFile ctx = .ok (request,file) ↔
      isMultipart = true ∧ ∃ fh authz userID,
      formFile = some fh ∧ validateFile media disk (some (newParsedFile (some fh))) imageRules =
        .ok file ∧
        ctx.rbac = some authz ∧ authz.userID = some userID ∧
          request = .changeProfilePicture ctx userID file.ext := by
  constructor
  · intro handled
    unfold changeProfilePicture at handled
    split at handled
    · cases handled
    · rename_i multipart
      split at handled
      · cases handled
      · rename_i fh
        split at handled
        · cases handled
        · rename_i accepted
          split at handled
          · cases handled
          · rename_i authz inside
            split at handled
            · cases handled
            · rename_i userID named
              cases handled
              exact ⟨by simpa using multipart,fh,authz,userID,rfl,accepted,inside,named,rfl⟩
  · rintro ⟨rfl,fh,authz,userID,rfl,accepted,inside,named,rfl⟩
    simp [changeProfilePicture,accepted,inside,named]

theorem uploads_allowed (media : Media) (disk : Disk) :
    (∀ (f : ParsedFile) (rules : ValidationRules), rules.allowedMIMEs ≠ [] →
      ((∀ after, validateFile media disk (some f) rules = .ok after →
        rules.isMIMEAllowed media (detected media f) = true) ↔
        ¬Mistaken media disk rules f)) ∧
    ∀ (isMultipart : Bool) (formFile : Option FileHeader) (ctx : Ctx),
      (∀ request file, changeProfilePicture media disk isMultipart formFile ctx = .ok
        (request,file) →
        imageRules.isMIMEAllowed media (media.detectContentType (file.unread.take 512)) = true) ↔
      ¬(isMultipart = true ∧ (∃ fh, formFile = some fh ∧
        Mistaken media disk imageRules (newParsedFile (some fh))) ∧
        ∃ authz userID, ctx.rbac = some authz ∧ authz.userID = some userID) := by
  have images : imageRules.allowedMIMEs ≠ [] := by decide
  have stored {fh : FileHeader} {file : ParsedFile}
      (accepted : validateFile media disk (some (newParsedFile (some fh))) imageRules = .ok file) :
      media.detectContentType (file.unread.take 512) = detected media
      (newParsedFile (some fh)) := by
    obtain ⟨_,_,rfl⟩ := (validateFile_ok images).mp accepted
    rfl
  refine ⟨fun f rules some' => accepted_allowed some',fun isMultipart formFile ctx => ⟨?_,?_⟩⟩
  · rintro sound ⟨multipart,⟨fh,rfl,mistaken⟩,authz,userID,inside,named⟩
    refine (accepted_allowed images).mp (fun after accepted => ?_) mistaken
    rw [← stored accepted]
    exact sound _ _ (changeProfilePicture_ok.mpr ⟨multipart,fh,authz,userID,rfl,accepted,inside,
      named,rfl⟩)
  · intro unmistaken request file handled
    obtain ⟨multipart,fh,authz,userID,rfl,accepted,inside,named,_⟩ :=
      changeProfilePicture_ok.mp handled
    rw [stored accepted]
    refine (accepted_allowed images).mpr (fun mistaken => ?_) file accepted
    exact unmistaken ⟨multipart,⟨fh,rfl,mistaken⟩,authz,userID,inside,named⟩

namespace Controls

-- The signatures of a ZIP archive and of a PNG image.
def media : Media where
  detectContentType bytes :=
    if [0x50,0x4b,0x03,0x04] <+: bytes then "application/zip"
    else if [0x89,0x50,0x4e,0x47,0x0d,0x0a,0x1a,0x0a] <+: bytes then "image/png"
    else "text/plain; charset=utf-8"
  extensionsByType mime := if mime = "image/png" then some [".png"] else some []
  foldRune := id
  text := ⟨id,id,fun _ _ => none,fun _ _ => "",fun _ => none⟩

def asAnn : Ctx := ⟨some ⟨some "u1",.user,"s0"⟩,none⟩
def zip : List UInt8 := [0x50,0x4b,0x03,0x04,0x14,0x00]
def png : List UInt8 := [0x89,0x50,0x4e,0x47,0x0d,0x0a,0x1a,0x0a,0x00]

theorem archive_stored : ∃ request file,
    changeProfilePicture media ⟨true,true,true,true⟩ true
      (some ⟨"me.xlsx",6,"image/png",zip⟩) asAnn = .ok (request,file) ∧
      file.unread = zip ∧ media.detectContentType (zip.take 512) = "application/zip" ∧
      imageRules.isMIMEAllowed media "application/zip" = false :=
  ⟨_,_,rfl,by decide +kernel,by decide +kernel,by decide +kernel⟩

def picture : ParsedFile := newParsedFile (some ⟨"me.png",9,"image/png",png⟩)

theorem picture_allowed : imageRules.isMIMEAllowed media (detected media picture) = true := by
  decide +kernel

theorem uploads_allowed_png :
    imageRules.allowedMIMEs ≠ [] ∧ ¬Mistaken media ⟨true,true,true,true⟩ imageRules picture := by
  refine ⟨by decide,((uploads_allowed media ⟨true,true,true,true⟩).1 picture imageRules
    (by decide)).mp fun _ _ => picture_allowed⟩

end Controls

end RestApi.Upload
