import CubeSandbox.GoText

/-!
The command stream of envd (`parseConnectStream` of `openclaw.go`).

A frame has a byte of flags, the length of its payload in four bytes and a payload in JSON. The
decoders of JSON and base64 are those of the Go library and stay parameters.
-/

namespace CubeSandbox.CommandStream

open GoText List

/-- A decoded value. Nothing looks into arrays, booleans and null, which are `other`. -/
inductive Json
  | num (x : Rat)
  | str (s : Bytes)
  | obj (fields : List (String × Json))
  | other

abbrev Fields := List (String × Json)

/-- `json.Unmarshal` into a map, and `base64.StdEncoding.DecodeString`. -/
structure Codec where
  unmarshal : Bytes → Option Fields
  decodeString : Bytes → Option Bytes

structure CommandOutput where
  exitCode : Int := 0
  stdout : Bytes := []
  stderr : Bytes := []

/-- "truncated envd command stream", and "envd command error" with the frame. -/
inductive StreamErr
  | truncated
  | command (v : Fields)

variable (c : Codec)

def decodeB64Lossy (s : Bytes) : Bytes := (c.decodeString s).getD s

/-- A type assertion `v[key].(map[string]interface{})`. -/
def fieldMap (key : String) (v : Fields) : Option Fields :=
  match v.lookup key with
  | some (.obj fields) => some fields
  | _ => none

/-- `event["data"]["stdout"]` or `event["data"]["stderr"]`, decoded. -/
def outputOf (key : String) (v : Fields) : Bytes :=
  match ((fieldMap "event" v).bind (fieldMap "data")).bind (·.lookup key) with
  | some (.str s) => decodeB64Lossy c s
  | _ => []

def endOf (v : Fields) : Option Fields := (fieldMap "event" v).bind (fieldMap "end")

/-- `int` of a `float64`. What does not fit Go leaves to the machine, here amd64. -/
def toInt (x : Rat) : Int :=
  let n := x.num.tdiv x.den
  if -2 ^ 63 ≤ n ∧ n < 2 ^ 63 then n else -2 ^ 63

/-- `int(exitCode)` of the end event. -/
def exitCodeOf (v : Fields) : Option Int :=
  match (endOf v).bind (·.lookup "exitCode") with
  | some (.num x) => some (toInt x)
  | _ => none

/-- The end of the loop's body: what the event of a frame adds. -/
def CommandOutput.add (out : CommandOutput) (v : Fields) : CommandOutput where
  exitCode := (exitCodeOf v).getD out.exitCode
  stdout := out.stdout ++ outputOf c "stdout" v
  stderr := out.stderr ++ outputOf c "stderr" v

def uint32 (b3 b2 b1 b0 : UInt8) : Nat :=
  ((b3.toNat * 256 + b2.toNat) * 256 + b1.toNat) * 256 + b0.toNat

/-- The loop, from the byte `i` on. -/
def parseLoop (data : Bytes) (out : CommandOutput) : Except StreamErr CommandOutput :=
  match data with
  | flags :: b3 :: b2 :: b1 :: b0 :: rest =>
    let length := uint32 b3 b2 b1 b0
    if rest.length < length then .error .truncated
    else
      match c.unmarshal (rest.take length) with
      | none => parseLoop (rest.drop length) out
      | some v =>
        if flags &&& 2 != 0 then
          if (v.lookup "error").isSome then .error (.command v)
          else parseLoop (rest.drop length) out
        else parseLoop (rest.drop length) (out.add c v)
  | _ => .ok out
termination_by data.length
decreasing_by all_goals simp; omega

def parseConnectStream (data : Bytes) : Except StreamErr CommandOutput := parseLoop c data {}

/-- What envd tells: output of the command, and at its end the exit code. -/
structure Message where
  stdout : Bytes := []
  stderr : Bytes := []
  exitCode : Option Int := none

/-- The output under a key is the text of its encoding, or it is not there. -/
def Wrote (key : String) (data : Fields) (out : Bytes) : Prop :=
  (∃ s, data.lookup key = some (.str s) ∧ c.decodeString s = some out) ∨
    data.lookup key = none ∧ out = []

/-- The value that is written for a message. An exit code is an `int`, and zero may be left out. -/
inductive Writes : Fields → Message → Prop
  | data {v event data : Fields} {out err : Bytes} (hv : v.lookup "event" = some (.obj event))
      (hdata : event.lookup "data" = some (.obj data)) (hend : event.lookup "end" = none)
      (hout : Wrote c "stdout" data out) (herr : Wrote c "stderr" data err) :
      Writes v { stdout := out, stderr := err }
  | finish {v event fields : Fields} {code : Int} (hv : v.lookup "event" = some (.obj event))
      (hdata : event.lookup "data" = none) (hend : event.lookup "end" = some (.obj fields))
      (hcode : fields.lookup "exitCode" = some (.num code) ∨
        fields.lookup "exitCode" = none ∧ code = 0)
      (hint : -2 ^ 63 ≤ code ∧ code < 2 ^ 63) : Writes v { exitCode := some code }
  | other {v : Fields} (hv : ∀ event, v.lookup "event" = some (.obj event) →
      event.lookup "data" = none ∧ event.lookup "end" = none) : Writes v {}

/-- A well-formed frame with what it was written for, which is nothing if it has the flag of an
error frame. -/
structure Frame where
  flags : UInt8
  payload : Bytes
  value : Fields
  message : Message
  short : payload.length < 2 ^ 32
  json : c.unmarshal payload = some value
  wrote : flags &&& 2 = 0 → Writes c value message
  calm : flags &&& 2 ≠ 0 → value.lookup "error" = none ∧ message = {}

variable {c}

def Frame.encode (f : Frame c) : Bytes :=
  let n := f.payload.length
  f.flags :: (n / 2 ^ 24).toUInt8 :: (n / 2 ^ 16).toUInt8 :: (n / 2 ^ 8).toUInt8 :: n.toUInt8 ::
    f.payload

/-- The first `k` bytes end inside of a payload. -/
def CutInPayload : List (Frame c) → Nat → Prop
  | [], _ => False
  | f :: fs, k =>
    if k < f.encode.length then 5 ≤ k else CutInPayload fs (k - f.encode.length)

lemma uint32_bytes {n : Nat} (h : n < 2 ^ 32) :
    uint32 (n / 2 ^ 24).toUInt8 (n / 2 ^ 16).toUInt8 (n / 2 ^ 8).toUInt8 n.toUInt8 = n := by
  simp only [uint32, Nat.toUInt8_eq, UInt8.toNat_ofNat']
  omega

lemma toInt_intCast {code : Int} (h : -2 ^ 63 ≤ code ∧ code < 2 ^ 63) : toInt code = code := by
  have hdiv : (code : Rat).num.tdiv (code : Rat).den = code := by simp
  rw [toInt, hdiv, if_pos h]

/-- The output once a message has been told, as long as no exit code was. -/
def CommandOutput.told (o : CommandOutput) (m : Message) : CommandOutput :=
  ⟨m.exitCode.getD 0, o.stdout ++ m.stdout, o.stderr ++ m.stderr⟩

variable {o : CommandOutput}

lemma parseLoop_nil : parseLoop c [] o = .ok o := by simp [parseLoop]

lemma Wrote.decode {key : String} {data : Fields} {out : Bytes} (h : Wrote c key data out) :
    (match data.lookup key with
      | some (.str s) => decodeB64Lossy c s
      | _ => []) = out := by
  obtain ⟨s, hs, hout⟩ | ⟨hnone, rfl⟩ := h
  · simp [hs, decodeB64Lossy, hout]
  · simp [hnone]

section

variable (ho : o.exitCode = 0)
include ho

lemma add_writes {v : Fields} {m : Message} (h : Writes c v m) : o.add c v = o.told m := by
  unfold CommandOutput.add CommandOutput.told outputOf exitCodeOf endOf fieldMap
  cases h with
  | data hv hdata hend hout herr =>
    simp [hv, hdata, hend, hout.decode, herr.decode, ho]
  | finish hv hdata hend hcode hint =>
    obtain hcode | ⟨hcode, rfl⟩ := hcode <;> simp [hv, hdata, hend, hcode, toInt_intCast hint, ho]
  | other hv =>
    rcases hevent : v.lookup "event" with _ | _ | _ | event | _
    case some.obj => simp [hv event hevent, ho]
    all_goals simp [ho]

lemma parseLoop_frame (f : Frame c) (rest : Bytes) :
    parseLoop c (f.encode ++ rest) o = parseLoop c rest (o.told f.message) := by
  simp only [Frame.encode, cons_append]
  rw [parseLoop]
  simp only [uint32_bytes f.short]
  by_cases hflags : f.flags &&& 2 = 0
  · simp [f.json, hflags, add_writes ho (f.wrote hflags)]
  · obtain ⟨hcalm, hmessage⟩ := f.calm hflags
    have htold : o.told {} = o := by simp [CommandOutput.told, ← ho]
    simp [f.json, hflags, hcalm, hmessage, htold]

end

lemma parseLoop_cut (f : Frame c) {k : Nat} (hk : k < f.encode.length) :
    parseLoop c (f.encode.take k) o = if 5 ≤ k then .error .truncated else .ok o := by
  have hlen : f.encode.length = f.payload.length + 5 := rfl
  match k with
  | 0 | 1 | 2 | 3 | 4 => simp [Frame.encode, parseLoop]
  | k + 5 =>
    have htake : (f.payload.take k).length < f.payload.length := by
      rw [length_take]
      omega
    simp only [Frame.encode, take_succ_cons]
    rw [parseLoop]
    simp only [uint32_bytes f.short, htake, if_true, Nat.le_add_left]

def encodeAll (fs : List (Frame c)) : Bytes := fs.flatMap Frame.encode

lemma encodeAll_cons (f : Frame c) (fs : List (Frame c)) :
    encodeAll (f :: fs) = f.encode ++ encodeAll fs := rfl

lemma told_none {m : Message} (hm : m.exitCode = none) : (o.told m).exitCode = 0 := by
  rw [CommandOutput.told, hm]
  rfl

section

variable (fs : List (Frame c)) (last : Frame c) (hfs : ∀ f ∈ fs, f.message.exitCode = none)
include hfs

lemma parseLoop_all (ho : o.exitCode = 0) : parseLoop c (encodeAll (fs ++ [last])) o = .ok
      ⟨last.message.exitCode.getD 0, o.stdout ++ (fs ++ [last]).flatMap (·.message.stdout),
        o.stderr ++ (fs ++ [last]).flatMap (·.message.stderr)⟩ := by
  induction fs generalizing o with
  | nil =>
    have hlast := parseLoop_frame ho last []
    rw [parseLoop_nil] at hlast
    simpa [encodeAll, CommandOutput.told] using hlast
  | cons f fs ih =>
    obtain ⟨hf, hrest⟩ := forall_mem_cons.1 hfs
    rw [cons_append, encodeAll_cons, parseLoop_frame ho, ih hrest (told_none hf)]
    simp [CommandOutput.told]

/-- A stream that is cut before its end: the loop fails or ends with no exit code. -/
lemma parseLoop_prefix {k : Nat} (hk : k < (encodeAll (fs ++ [last])).length)
    (ho : o.exitCode = 0) :
    (CutInPayload (fs ++ [last]) k ∧
      parseLoop c ((encodeAll (fs ++ [last])).take k) o = .error .truncated) ∨
    (¬ CutInPayload (fs ++ [last]) k ∧ ∃ o', o'.exitCode = 0 ∧
      parseLoop c ((encodeAll (fs ++ [last])).take k) o = .ok o') := by
  induction fs generalizing o k with
  | nil =>
    have henc : encodeAll ([] ++ [last]) = last.encode := by simp [encodeAll]
    rw [henc] at hk ⊢
    rw [parseLoop_cut last hk, nil_append, CutInPayload, if_pos hk]
    by_cases h5 : 5 ≤ k <;> simp [h5, ho]
  | cons f fs ih =>
    obtain ⟨hf, hrest⟩ := forall_mem_cons.1 hfs
    rw [cons_append, encodeAll_cons] at hk ⊢
    rw [CutInPayload]
    by_cases hcut : k < f.encode.length
    · rw [if_pos hcut, take_append_of_le_length hcut.le, parseLoop_cut f hcut]
      by_cases h5 : 5 ≤ k <;> simp [h5, ho]
    · rw [if_neg hcut, take_append, take_of_length_le (not_lt.1 hcut),
        parseLoop_frame ho]
      rw [length_append] at hk
      exact ih hrest (by omega) (told_none hf)

/-- **The command stream.** A whole stream gives the output that was written and the exit code of
its last frame, and a part of it is not taken for a success exactly if it ends inside of a
payload. -/
theorem stream_parsed_iff {code : Int} (hlast : last.message.exitCode = some code) :
    parseConnectStream c (encodeAll (fs ++ [last])) = .ok ⟨code,
      (fs ++ [last]).flatMap (·.message.stdout), (fs ++ [last]).flatMap (·.message.stderr)⟩ ∧
    ∀ k < (encodeAll (fs ++ [last])).length,
      (∀ out, parseConnectStream c ((encodeAll (fs ++ [last])).take k) = .ok out →
        out.exitCode ≠ 0) ↔ CutInPayload (fs ++ [last]) k := by
  refine ⟨?_, fun k hk => ?_⟩
  · simpa [parseConnectStream, hlast] using parseLoop_all (o := {}) fs last hfs rfl
  unfold parseConnectStream
  obtain ⟨hcut, herr⟩ | ⟨hcut, out, hout, hok⟩ := parseLoop_prefix (o := {}) fs last hfs hk rfl
  · simp [hcut, herr]
  · simp [hcut, hok, hout]

end

/-- The output `hi`, and an end with exit code 1. -/
def outJson : Bytes := ascii "\x7b\"event\":\x7b\"data\":\x7b\"stdout\":\"aGk=\"\x7d\x7d\x7d"
def endJson : Bytes := ascii "\x7b\"event\":\x7b\"end\":\x7b\"exitCode\":1\x7d\x7d\x7d"

def outValue : Fields := [("event", .obj [("data", .obj [("stdout", .str (ascii "aGk="))])])]
def endValue : Fields := [("event", .obj [("end", .obj [("exitCode", .num 1)])])]

/-- What the decoders make of these texts. -/
def demoCodec : Codec where
  unmarshal payload :=
    if payload = outJson then some outValue
    else if payload = endJson then some endValue
    else none
  decodeString s := if s = ascii "aGk=" then some (ascii "hi") else none

def outFrame : Frame demoCodec where
  flags := 0
  payload := outJson
  value := outValue
  message := { stdout := ascii "hi" }
  short := by decide
  json := by simp [demoCodec]
  wrote := fun _ => .data rfl rfl rfl (.inl ⟨_, rfl, by simp [demoCodec]⟩) (.inr ⟨rfl, rfl⟩)
  calm := fun h => absurd rfl h

def endFrame : Frame demoCodec where
  flags := 0
  payload := endJson
  value := endValue
  message := { exitCode := some 1 }
  short := by decide
  json := by
    have hne : endJson ≠ outJson := by decide
    simp [demoCodec, hne]
  wrote := fun _ => .finish rfl rfl rfl (.inl rfl) (by decide)
  calm := fun h => absurd rfl h

theorem failed_command_parsed :
    parseConnectStream demoCodec (encodeAll [outFrame, endFrame]) = .ok ⟨1, ascii "hi", []⟩ :=
  (stream_parsed_iff [outFrame] endFrame (by simp [outFrame]) rfl).1

/-- **A stream that is cut between two frames is taken for a success.** -/
theorem cut_stream_succeeds : ¬ ∀ (c : Codec) (fs : List (Frame c)) (last : Frame c),
    (∀ f ∈ fs, f.message.exitCode = none) → last.message.exitCode.isSome →
    ∀ k < (encodeAll (fs ++ [last])).length, ∀ out,
      parseConnectStream c ((encodeAll (fs ++ [last])).take k) = .ok out → out.exitCode ≠ 0 := by
  intro h
  refine h demoCodec [outFrame] endFrame (by simp [outFrame]) rfl 0 (Nat.succ_pos _) {} ?_ rfl
  simp [parseConnectStream, parseLoop_nil]

end CubeSandbox.CommandStream
