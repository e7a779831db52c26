import Gemacast.Control.AdbServer
import Gemacast.Core.Bytes
import Gemacast.Core.ByteStream

/-!
# The handshake of an audio socket on the wire

A device writes a version byte, its id and its token behind a length byte each, and the
number of its session in eight bytes. The server reads the three lengths off the socket as
it goes and hands what it has read to the parser. The parser accepts exactly what the
encoder writes, and the reader exactly the streams that begin with it.
-/

namespace Gemacast.Control

open Gemacast.Core Gemacast.Streamer

/-- The version of the format. -/
def adbHandshakeVersion : UInt8 := 1

/-- Most bytes of a device id. -/
def maxDeviceIdLength : ℕ := 128

/-- Most bytes of a session token. -/
def maxSessionTokenLength : ℕ := 255

/-- What is wrong with a field to be written. -/
inductive ProtocolError
  | emptyAdbHandshakeField (field : String)
  | adbHandshakeFieldTooLong (field : String) (got max : ℕ)
  deriving DecidableEq

/-- The text with the given bytes, if they are one. -/
def fromUtf8 (bytes : List UInt8) : Option String := String.fromUTF8? ⟨bytes.toArray⟩

/-- Bytes are a text exactly when they are its bytes. -/
theorem fromUtf8_eq_some {bytes : List UInt8} {s : String} :
    fromUtf8 bytes = some s ↔ asBytes s = bytes := by
  unfold fromUtf8 String.fromUTF8?
  constructor
  · intro h
    split at h
    · obtain rfl := Option.some.inj h
      rfl
    · nomatch h
  · rintro rfl
    have hbytes : (⟨(asBytes s).toArray⟩ : ByteArray) = s.toByteArray := by
      rw [asBytes]
      rfl
    rw [hbytes, dif_pos s.isValidUTF8]
    rfl

namespace AdbAudioHandshake

/-- Append a field behind its length. -/
def writeField (output value : List UInt8) (field : String) (max : ℕ) :
    Except ProtocolError (List UInt8) :=
  if value.isEmpty then .error (.emptyAdbHandshakeField field)
  else if max < value.length then .error (.adbHandshakeFieldTooLong field value.length max)
  else .ok (output ++ [UInt8.ofNat value.length] ++ value)

/-- The bytes of a handshake. -/
def encode (deviceId : DeviceId) (sessionToken : String) (generation : SessionGeneration) :
    Except ProtocolError (List UInt8) := do
  let handshake := [adbHandshakeVersion]
  let handshake ← writeField handshake (asBytes deviceId) "device ID" maxDeviceIdLength
  let handshake ← writeField handshake (asBytes sessionToken) "session token" maxSessionTokenLength
  return handshake ++ wordBytes generation

end AdbAudioHandshake

/-- The next `len` bytes from the cursor on, and the cursor behind them. -/
def take (bytes : List UInt8) (cursor len : ℕ) : Option (List UInt8 × ℕ) :=
  if cursor + len ≤ bytes.length then some ((bytes.drop cursor).take len, cursor + len) else none

/-- The next byte as a number. -/
def takeLength (bytes : List UInt8) (cursor : ℕ) : Option (ℕ × ℕ) := do
  let (value, cursor) ← take bytes cursor 1
  let first ← value.head?
  return (first.toNat, cursor)

/-- What is there, or the error that it is not. -/
def okOr {α : Type} (value : Option α) (error : String) : Except String α :=
  match value with
  | some a => .ok a
  | none => .error error

/-- The error when something is wrong. -/
def failIf (wrong : Prop) [Decidable wrong] (error : String) : Except String Unit :=
  if wrong then .error error else .ok ()

/-- The next text, behind its length. -/
def takeText (bytes : List UInt8) (cursor : ℕ) (field : String) (max : ℕ) :
    Except String (String × ℕ) := do
  let (len, cursor) ← okOr (takeLength bytes cursor) s!"missing ADB {field} length"
  failIf (len = 0 ∨ max < len) s!"invalid ADB {field} length"
  let (value, cursor) ← okOr (take bytes cursor len) s!"truncated ADB {field}"
  let text ← okOr (fromUtf8 value) s!"ADB {field} is not UTF-8"
  return (text, cursor)

/-- Parse the bytes of a handshake. -/
def parseAdbAudioHandshake (bytes : List UInt8) : Except String AdbAudioHandshake := do
  let (version, cursor) ← okOr (take bytes 0 1) "unsupported ADB audio handshake version"
  failIf (version ≠ [adbHandshakeVersion]) "unsupported ADB audio handshake version"
  let (deviceId, cursor) ← takeText bytes cursor "device ID" maxDeviceIdLength
  let (sessionToken, cursor) ← takeText bytes cursor "session token" maxSessionTokenLength
  let (generation, cursor) ← okOr (take bytes cursor 8) "missing ADB session generation"
  let generation := ofWordBytes generation
  failIf (generation = 0 ∨ cursor ≠ bytes.length)
    "invalid ADB session generation or trailing data"
  return ⟨deviceId, sessionToken, generation⟩

/-- What comes of reading a handshake off a socket, and what has yet to arrive. -/
inductive HandshakeRead
  /-- The reader still waits for bytes. -/
  | waiting
  /-- A handshake was read. -/
  | accepted (handshake : AdbAudioHandshake) (rest : List SocketEvent)
  /-- The reader gave up. -/
  | refused (error : String)

/-- Read a handshake off a socket. -/
def readAdbAudioHandshake (now : ℕ) (socket : List SocketEvent) : HandshakeRead :=
  match readExact 2 now socket with
  | .blocked => .waiting
  | .failed _ _ _ => .refused "truncated ADB audio handshake"
  | .done start now socket =>
    let deviceLen := ((start[1]?).getD 0).toNat
    if deviceLen = 0 ∨ maxDeviceIdLength < deviceLen then .refused "invalid ADB device ID length"
    else
      match readExact (deviceLen + 1) now socket with
      | .blocked => .waiting
      | .failed _ _ _ => .refused "truncated ADB audio handshake"
      | .done deviceAndTokenLen now socket =>
        let tokenLen := ((deviceAndTokenLen[deviceLen]?).getD 0).toNat
        if tokenLen = 0 ∨ maxSessionTokenLength < tokenLen then
          .refused "invalid ADB session token length"
        else
          match readExact (tokenLen + 8) now socket with
          | .blocked => .waiting
          | .failed _ _ _ => .refused "truncated ADB audio handshake"
          | .done tokenAndGeneration _ socket =>
            match parseAdbAudioHandshake (start ++ deviceAndTokenLen ++ tokenAndGeneration) with
            | .ok handshake => .accepted handshake socket
            | .error error => .refused error

namespace AdbAudioHandshake

variable {bytes output value : List UInt8} {field : String} {max : ℕ}

/-- A session of a device that a handshake can name. -/
structure Fits (deviceId : DeviceId) (sessionToken : String) (generation : SessionGeneration) :
    Prop where
  deviceId_pos : 0 < (asBytes deviceId).length
  deviceId_le : (asBytes deviceId).length ≤ maxDeviceIdLength
  sessionToken_pos : 0 < (asBytes sessionToken).length
  sessionToken_le : (asBytes sessionToken).length ≤ maxSessionTokenLength
  generation_ne : generation ≠ 0

/-- A field behind its length. -/
def spell (value : List UInt8) : List UInt8 := UInt8.ofNat value.length :: value

/-- The bytes of a handshake that fits. -/
def spelling (deviceId : DeviceId) (sessionToken : String) (generation : SessionGeneration) :
    List UInt8 :=
  adbHandshakeVersion :: (spell (asBytes deviceId) ++ (spell (asBytes sessionToken) ++
    wordBytes generation))

/-- A computation succeeds when its first part and the rest do. -/
theorem bind_eq_ok {ε α β : Type} {x : Except ε α} {f : α → Except ε β} {b : β} :
    x >>= f = .ok b ↔ ∃ a, x = .ok a ∧ f a = .ok b := by
  cases x with
  | error e => simp [bind, Except.bind]
  | ok a => simp [bind, Except.bind]

/-- A field is written exactly when its length is allowed. -/
theorem writeField_eq_ok : writeField output value field max = .ok bytes ↔
    (0 < value.length ∧ value.length ≤ max) ∧ bytes = output ++ spell value := by
  unfold writeField spell
  rcases Nat.eq_zero_or_pos value.length with hempty | hpos
  · have hnil := List.length_eq_zero_iff.mp hempty
    simp [hnil]
  · have hfull : value.isEmpty = false := by
      rw [List.isEmpty_eq_false_iff, ← List.length_pos_iff]
      exact hpos
    rw [hfull, if_neg Bool.false_ne_true]
    by_cases hlong : max < value.length
    · rw [if_pos hlong]
      refine iff_of_false (fun h => nomatch h) fun h => ?_
      exact absurd h.1.2 (Nat.not_le.mpr hlong)
    · rw [if_neg hlong, Except.ok.injEq, List.append_assoc, List.singleton_append,
        and_iff_right ⟨hpos, Nat.le_of_not_lt hlong⟩]
      exact eq_comm

/-- The encoder writes the spelling of every handshake of allowed lengths. -/
theorem encode_eq_ok {deviceId : DeviceId} {sessionToken : String}
    {generation : SessionGeneration} :
    encode deviceId sessionToken generation = .ok bytes ↔
      (0 < (asBytes deviceId).length ∧ (asBytes deviceId).length ≤ maxDeviceIdLength) ∧
      (0 < (asBytes sessionToken).length ∧
        (asBytes sessionToken).length ≤ maxSessionTokenLength) ∧
      bytes = spelling deviceId sessionToken generation := by
  have hpure : ∀ a b : List UInt8,
      (pure a : Except ProtocolError (List UInt8)) = .ok b ↔ b = a := by
    intro a b
    change Except.ok a = .ok b ↔ b = a
    rw [Except.ok.injEq]
    exact eq_comm
  unfold encode spelling
  dsimp only
  simp only [bind_eq_ok, writeField_eq_ok, hpure]
  constructor
  · rintro ⟨_, ⟨hdevice, rfl⟩, _, ⟨htoken, rfl⟩, rfl⟩
    exact ⟨hdevice, htoken, by simp only [List.append_assoc, List.cons_append,
      List.nil_append]⟩
  · rintro ⟨hdevice, htoken, rfl⟩
    exact ⟨_, ⟨hdevice, rfl⟩, _, ⟨htoken, rfl⟩, by simp only [List.append_assoc,
      List.cons_append, List.nil_append]⟩

end AdbAudioHandshake

open AdbAudioHandshake

section Parse

variable {bytes rest value : List UInt8} {cursor cursor' len : ℕ}

@[simp] theorem okOr_eq_ok {α : Type} {value : Option α} {error : String} {a : α} :
    okOr value error = .ok a ↔ value = some a := by
  cases value <;> simp [okOr]

@[simp] theorem failIf_eq_ok {wrong : Prop} [Decidable wrong] {error : String} {u : Unit} :
    failIf wrong error = .ok u ↔ ¬wrong := by
  unfold failIf
  split <;> simp [*]

/-- What is taken stands between the cursors. -/
theorem take_eq_some (hrest : bytes.drop cursor = rest) (hle : cursor ≤ bytes.length) :
    take bytes cursor len = some (value, cursor') ↔
      len ≤ rest.length ∧ value = rest.take len ∧ cursor' = cursor + len := by
  have hlen : rest.length = bytes.length - cursor := by rw [← hrest, List.length_drop]
  unfold take
  rw [hrest]
  by_cases hfits : cursor + len ≤ bytes.length
  · rw [if_pos hfits, and_iff_right (by omega), Option.some.injEq, Prod.mk.injEq]
    exact and_congr eq_comm eq_comm
  · rw [if_neg hfits]
    exact iff_of_false (fun h => nomatch h) fun h => absurd h.1 (by omega)

/-- A length is the next byte. -/
theorem takeLength_eq_some (hrest : bytes.drop cursor = rest) (hle : cursor ≤ bytes.length) :
    takeLength bytes cursor = some (len, cursor') ↔
      ∃ b tail, rest = b :: tail ∧ len = b.toNat ∧ cursor' = cursor + 1 := by
  unfold takeLength
  simp only [Option.bind_eq_bind, Option.bind_eq_some_iff, Prod.exists]
  constructor
  · rintro ⟨value, cursor₁, htake, b, hhead, hpure⟩
    obtain ⟨hlen, rfl, rfl⟩ := (take_eq_some hrest hle).mp htake
    obtain ⟨rfl, rfl⟩ := Prod.mk.inj (Option.some.inj hpure)
    cases rest with
    | nil => nomatch hhead
    | cons b' tail =>
      obtain rfl : b' = b := by simpa using hhead
      exact ⟨b', tail, rfl, rfl, rfl⟩
  · rintro ⟨b, tail, rfl, rfl, rfl⟩
    exact ⟨[b], cursor + 1, (take_eq_some hrest hle).mpr ⟨by simp, by simp, rfl⟩, b, rfl, rfl⟩

/-- The cursor stays in the bytes, and what is left stands behind it. -/
theorem drop_add (hrest : bytes.drop cursor = value ++ rest) (hle : cursor ≤ bytes.length) :
    bytes.drop (cursor + value.length) = rest ∧ cursor + value.length ≤ bytes.length := by
  have hlen := congrArg List.length hrest
  rw [List.length_drop, List.length_append] at hlen
  refine ⟨?_, by omega⟩
  rw [← List.drop_drop, hrest, List.drop_left]

/-- A text is taken exactly where its spelling stands. -/
theorem takeText_eq_ok {field : String} {max : ℕ} (hmax : max < 256) {s : String}
    (hrest : bytes.drop cursor = rest) (hle : cursor ≤ bytes.length) :
    takeText bytes cursor field max = .ok (s, cursor') ↔
      (0 < (asBytes s).length ∧ (asBytes s).length ≤ max) ∧
        cursor' = cursor + (spell (asBytes s)).length ∧
        ∃ tail, rest = spell (asBytes s) ++ tail := by
  unfold takeText
  simp only [bind_eq_ok, okOr_eq_ok, failIf_eq_ok, takeLength_eq_some hrest hle, Prod.exists,
    fromUtf8_eq_some]
  constructor
  · rintro ⟨len, _, ⟨b, tail, rfl, rfl, rfl⟩, _, hrange, value, _, htake, text, hvalue, hpure⟩
    have hsplit : bytes.drop cursor = [b] ++ tail := hrest
    obtain ⟨hdrop, hin⟩ := drop_add hsplit hle
    obtain ⟨hlen, rfl, rfl⟩ := (take_eq_some hdrop hin).mp htake
    obtain ⟨rfl, rfl⟩ := Prod.mk.inj (Except.ok.inj hpure)
    have hsize : (asBytes text).length = b.toNat := by
      rw [hvalue, List.length_take]
      exact min_eq_left hlen
    have hspell : spell (asBytes text) = b :: tail.take b.toNat := by
      rw [spell, hsize, UInt8.ofNat_toNat, hvalue]
    refine ⟨by omega, ?_, tail.drop b.toNat, ?_⟩
    · simp only [hspell, List.length_cons, List.length_nil, List.length_take, min_eq_left hlen]
      omega
    · rw [hspell, List.cons_append, List.take_append_drop]
  · rintro ⟨⟨hpos, hlong⟩, rfl, tail, rfl⟩
    have hsize : (UInt8.ofNat (asBytes s).length).toNat = (asBytes s).length := by
      rw [UInt8.toNat_ofNat', Nat.mod_eq_of_lt (by omega)]
    have hsplit : bytes.drop cursor =
        [UInt8.ofNat (asBytes s).length] ++ (asBytes s ++ tail) := hrest
    obtain ⟨hdrop, hin⟩ := drop_add hsplit hle
    refine ⟨(asBytes s).length, cursor + 1, ⟨_, _, rfl, hsize.symm, rfl⟩, (), by omega,
      asBytes s, cursor + 1 + (asBytes s).length, ?_, s, rfl, ?_⟩
    · refine (take_eq_some hdrop hin).mpr ⟨?_, ?_, rfl⟩
      · rw [List.length_append]
        omega
      · rw [List.take_left]
    · rw [spell, List.length_cons, Nat.add_assoc, Nat.add_comm 1]
      rfl

/-- The parser accepts exactly the spellings of the sessions a handshake can name. -/
theorem parse_eq_ok_iff {h : AdbAudioHandshake} :
    parseAdbAudioHandshake bytes = .ok h ↔
      Fits h.deviceId h.sessionToken h.generation ∧
        bytes = spelling h.deviceId h.sessionToken h.generation := by
  have hdevice : maxDeviceIdLength < 256 := by decide
  have htoken : maxSessionTokenLength < 256 := by decide
  unfold parseAdbAudioHandshake
  simp only [bind_eq_ok, okOr_eq_ok, failIf_eq_ok, Prod.exists]
  constructor
  · rintro ⟨version, _, hversion, _, hsupported, deviceId, _, hid, token, _, htok, generation,
      _, hgen, _, hlast, hpure⟩
    obtain ⟨hlen, rfl, rfl⟩ := (take_eq_some List.drop_zero (Nat.zero_le _)).mp hversion
    have hsplit : bytes.drop 0 = [adbHandshakeVersion] ++ bytes.drop 1 := by
      rw [← not_not.mp hsupported, List.drop_zero, List.take_append_drop]
    obtain ⟨hdrop₁, hin₁⟩ := drop_add hsplit (Nat.zero_le _)
    obtain ⟨hidLen, rfl, tail₁, htail₁⟩ := (takeText_eq_ok hdevice hdrop₁ hin₁).mp hid
    obtain ⟨hdrop₂, hin₂⟩ := drop_add (hdrop₁.trans htail₁) hin₁
    obtain ⟨htokLen, rfl, tail₂, htail₂⟩ := (takeText_eq_ok htoken hdrop₂ hin₂).mp htok
    obtain ⟨hdrop₃, hin₃⟩ := drop_add (hdrop₂.trans htail₂) hin₂
    obtain ⟨hlen₃, rfl, rfl⟩ := (take_eq_some hdrop₃ hin₃).mp hgen
    obtain rfl := Except.ok.inj hpure
    simp only [not_or, not_not] at hlast
    have hrest : (tail₂.take 8).length = 8 ∧ tail₂ = tail₂.take 8 := by
      have hall : tail₂.length = 8 := by
        rw [← hdrop₃, List.length_drop, ← hlast.2]
        omega
      exact ⟨by rw [List.length_take, hall]; rfl, (List.take_of_length_le hall.le).symm⟩
    refine ⟨⟨hidLen.1, hidLen.2, htokLen.1, htokLen.2, hlast.1⟩, ?_⟩
    rw [← List.drop_zero (l := bytes), hsplit, htail₁, htail₂, spelling,
      wordBytes_ofWordBytes hrest.1, ← hrest.2]
    rfl
  · rintro ⟨hfits, hbytes⟩
    have hsplit : bytes.drop 0 = [adbHandshakeVersion] ++ (spell (asBytes h.deviceId) ++
        (spell (asBytes h.sessionToken) ++ wordBytes h.generation)) := by
      rw [List.drop_zero, hbytes]
      rfl
    obtain ⟨hdrop₁, hin₁⟩ := drop_add hsplit (Nat.zero_le _)
    obtain ⟨hdrop₂, hin₂⟩ := drop_add hdrop₁ hin₁
    obtain ⟨hdrop₃, hin₃⟩ := drop_add hdrop₂ hin₂
    have hend := congrArg List.length hdrop₃
    rw [List.length_drop, length_wordBytes] at hend
    refine ⟨_, _, (take_eq_some hsplit (Nat.zero_le _)).mpr ⟨?_, rfl, rfl⟩, (), by simp,
      h.deviceId, _, (takeText_eq_ok hdevice hdrop₁ hin₁).mpr
        ⟨⟨hfits.deviceId_pos, hfits.deviceId_le⟩, rfl, _, rfl⟩,
      h.sessionToken, _, (takeText_eq_ok htoken hdrop₂ hin₂).mpr
        ⟨⟨hfits.sessionToken_pos, hfits.sessionToken_le⟩, rfl, _, rfl⟩,
      _, _, (take_eq_some hdrop₃ hin₃).mpr ⟨(length_wordBytes _).ge, rfl, rfl⟩, (), ?_, ?_⟩
    · rw [List.length_append]
      exact Nat.le_add_right 1 _
    · rw [List.take_of_length_le (length_wordBytes _).le, ofWordBytes_wordBytes]
      exact not_or.mpr ⟨hfits.generation_ne, by omega⟩
    · rw [List.take_of_length_le (length_wordBytes _).le, ofWordBytes_wordBytes]
      rfl

end Parse

section Read

variable {bytes : List UInt8} {socket rest : List SocketEvent} {now : ℕ} {h : AdbAudioHandshake}

/-- What the reader accepts it has parsed, and taken off the stream. -/
theorem parse_of_read (hs : Streams bytes socket)
    (hread : readAdbAudioHandshake now socket = .accepted h rest) :
    ∃ start suffix, bytes = start ++ suffix ∧ parseAdbAudioHandshake start = .ok h ∧
      Streams suffix rest := by
  unfold readAdbAudioHandshake at hread
  dsimp only at hread
  split at hread
  · nomatch hread
  · nomatch hread
  rename_i start _ socket₁ hstart
  obtain ⟨-, hstart, hs₁⟩ := hs.of_done hstart
  split at hread
  · nomatch hread
  split at hread
  · nomatch hread
  · nomatch hread
  rename_i deviceAndTokenLen _ socket₂ hdevice
  obtain ⟨-, hdevice, hs₂⟩ := hs₁.of_done hdevice
  split at hread
  · nomatch hread
  split at hread
  · nomatch hread
  · nomatch hread
  rename_i tokenAndGeneration _ socket₃ htoken
  obtain ⟨-, htoken, hs₃⟩ := hs₂.of_done htoken
  split at hread
  · rename_i handshake hparse
    obtain ⟨rfl, rfl⟩ := HandshakeRead.accepted.inj hread
    refine ⟨_, _, ?_, hparse, hs₃⟩
    rw [List.append_assoc, List.append_assoc, htoken, List.take_append_drop, hdevice,
      List.take_append_drop, hstart, List.take_append_drop]
  · nomatch hread

/-- The reader accepts a stream that begins with what the parser accepts. -/
theorem read_of_parse {start suffix : List UInt8} (now : ℕ) (hs : Streams (start ++ suffix) socket)
    (hparse : parseAdbAudioHandshake start = .ok h) :
    ∃ rest, readAdbAudioHandshake now socket = .accepted h rest ∧ Streams suffix rest := by
  obtain ⟨hfits, hstart⟩ := parse_eq_ok_iff.mp hparse
  have hdeviceLe := hfits.deviceId_le
  have htokenLe := hfits.sessionToken_le
  have hdevicePos := hfits.deviceId_pos
  have htokenPos := hfits.sessionToken_pos
  generalize hD : asBytes h.deviceId = D at *
  generalize hT : asBytes h.sessionToken = T at *
  have hsplit : start = [adbHandshakeVersion, UInt8.ofNat D.length] ++
      ((D ++ [UInt8.ofNat T.length]) ++ (T ++ wordBytes h.generation)) := by
    rw [hstart, spelling, hD, hT]
    simp [spell]
  have hdevice : (UInt8.ofNat D.length).toNat = D.length := by
    rw [UInt8.toNat_ofNat', Nat.mod_eq_of_lt (hdeviceLe.trans_lt (by decide))]
  have htoken : (UInt8.ofNat T.length).toNat = T.length := by
    rw [UInt8.toNat_ofNat', Nat.mod_eq_of_lt (htokenLe.trans_lt (by decide))]
  rw [hsplit, List.append_assoc, List.append_assoc] at hs
  obtain ⟨now₁, socket₁, hread₁, hs₁⟩ := hs.exists_done_append now
  obtain ⟨now₂, socket₂, hread₂, hs₂⟩ := hs₁.exists_done_append now₁
  obtain ⟨now₃, socket₃, hread₃, hs₃⟩ := hs₂.exists_done_append now₂
  simp only [List.length_cons, List.length_nil, List.length_append, length_wordBytes,
    Nat.zero_add] at hread₁ hread₂ hread₃
  have hparse' : parseAdbAudioHandshake ([adbHandshakeVersion, UInt8.ofNat D.length] ++
      (D ++ [UInt8.ofNat T.length]) ++ (T ++ wordBytes h.generation)) = .ok h := by
    rw [List.append_assoc, ← hsplit]
    exact hparse
  have hlast : ((D ++ [UInt8.ofNat T.length])[D.length]?).getD 0 = UInt8.ofNat T.length := by
    rw [List.getElem?_append_right le_rfl, Nat.sub_self]
    rfl
  have hlen : (([adbHandshakeVersion, UInt8.ofNat D.length][1]?).getD 0) =
      UInt8.ofNat D.length := rfl
  refine ⟨socket₃, ?_, hs₃⟩
  unfold readAdbAudioHandshake
  simp only [hread₁, hlen, hdevice]
  rw [if_neg (by omega)]
  simp only [hread₂, hlast, htoken]
  rw [if_neg (by omega)]
  simp only [hread₃, hparse']

/-- On a stream of bytes the reader accepts exactly what the parser accepts of some of the
first bytes. -/
theorem read_eq_accepted_iff (hs : Streams bytes socket) :
    (∃ rest, readAdbAudioHandshake now socket = .accepted h rest) ↔
      ∃ start, start <+: bytes ∧ parseAdbAudioHandshake start = .ok h := by
  constructor
  · rintro ⟨rest, hread⟩
    obtain ⟨start, suffix, rfl, hparse, -⟩ := parse_of_read hs hread
    exact ⟨start, List.prefix_append _ _, hparse⟩
  · rintro ⟨start, ⟨suffix, rfl⟩, hparse⟩
    obtain ⟨rest, hread, -⟩ := read_of_parse now hs hparse
    exact ⟨rest, hread⟩

/-- The parser accepts at most one run of first bytes. -/
theorem prefix_unique {start start' : List UInt8} {h' : AdbAudioHandshake} (hp : start <+: bytes)
    (hp' : start' <+: bytes) (hparse : parseAdbAudioHandshake start = .ok h)
    (hparse' : parseAdbAudioHandshake start' = .ok h') : start = start' := by
  obtain ⟨socket, hs⟩ : ∃ socket, Streams bytes socket := by
    clear hp hp'
    induction bytes with
    | nil => exact ⟨[], .ended rfl⟩
    | cons b bytes ih =>
      obtain ⟨socket, hs⟩ := ih
      exact ⟨_, .byte b 0 hs⟩
  obtain ⟨suffix, rfl⟩ := hp
  obtain ⟨suffix', hsame⟩ := hp'
  obtain ⟨rest, hread, -⟩ := read_of_parse 0 hs hparse
  rw [← hsame] at hs
  obtain ⟨rest', hread', -⟩ := read_of_parse 0 hs hparse'
  obtain ⟨rfl, -⟩ := HandshakeRead.accepted.inj (hread.symm.trans hread')
  rw [(parse_eq_ok_iff.mp hparse).2, (parse_eq_ok_iff.mp hparse').2]

/-- Encoder, parser and reader speak one format: every session a handshake can name comes
back from its bytes, the parser accepts nothing else, and the reader accepts a stream exactly
when the parser accepts some of its first bytes, takes these and no others, and has no other
choice. -/
theorem handshake_codec :
    (∀ deviceId sessionToken generation, Fits deviceId sessionToken generation →
      ∃ bytes, encode deviceId sessionToken generation = .ok bytes ∧
        parseAdbAudioHandshake bytes = .ok ⟨deviceId, sessionToken, generation⟩) ∧
    (∀ bytes h, parseAdbAudioHandshake bytes = .ok h →
      Fits h.deviceId h.sessionToken h.generation ∧
        encode h.deviceId h.sessionToken h.generation = .ok bytes) ∧
    ∀ bytes socket now, Streams bytes socket →
      (∀ h, (∃ rest, readAdbAudioHandshake now socket = .accepted h rest) ↔
        ∃ start, start <+: bytes ∧ parseAdbAudioHandshake start = .ok h) ∧
      ∀ h rest, readAdbAudioHandshake now socket = .accepted h rest →
        ∃ start suffix, bytes = start ++ suffix ∧ parseAdbAudioHandshake start = .ok h ∧
          Streams suffix rest ∧ ∀ start' h', start' <+: bytes →
            parseAdbAudioHandshake start' = .ok h' → start' = start := by
  refine ⟨?_, ?_, ?_⟩
  · intro deviceId sessionToken generation hfits
    refine ⟨spelling deviceId sessionToken generation, ?_, parse_eq_ok_iff.mpr ⟨hfits, rfl⟩⟩
    exact encode_eq_ok.mpr ⟨⟨hfits.deviceId_pos, hfits.deviceId_le⟩,
      ⟨hfits.sessionToken_pos, hfits.sessionToken_le⟩, rfl⟩
  · intro bytes h hparse
    obtain ⟨hfits, hbytes⟩ := parse_eq_ok_iff.mp hparse
    exact ⟨hfits, encode_eq_ok.mpr ⟨⟨hfits.deviceId_pos, hfits.deviceId_le⟩,
      ⟨hfits.sessionToken_pos, hfits.sessionToken_le⟩, hbytes⟩⟩
  · intro bytes socket now hs
    refine ⟨fun h => read_eq_accepted_iff hs, ?_⟩
    intro h rest hread
    obtain ⟨start, suffix, rfl, hparse, hrest⟩ := parse_of_read hs hread
    exact ⟨start, suffix, rfl, hparse, hrest, fun start' h' hprefix hparse' =>
      prefix_unique hprefix (List.prefix_append _ _) hparse' hparse⟩

theorem handshake_codec_phone : ∃ bytes, encode "phone" "secret" 1 = .ok bytes ∧
    parseAdbAudioHandshake bytes = .ok ⟨"phone", "secret", 1⟩ :=
  handshake_codec.1 "phone" "secret" 1
    ⟨by decide, by decide, by decide, by decide, by decide⟩

end Read

end Gemacast.Control
