import BrewDB.Common.Layers
import BrewDB.Frontend.Decoding

/-!
# The startup

Reference: `read_startup` of `brewdb-frontend/src/pgwire.rs` and `write_startup_message` of
`brewdb-bin/src/client.rs`.

The client names a user and perhaps a database; the server scans keys and values up to an empty key, and turns
requests for encryption down on the way. Writes to the stream succeed.
-/

namespace BrewDB.PgWire

open BrewDB.Bytes Checked Layers

/-! ## The server -/

namespace Server

/-- The loop of `read_startup`: what is left of the stream, what is written to it, and the last payload. -/
structure StartupState where
  stream : List UInt8
  written : List UInt8
  payload : List UInt8

/-- What becomes of a packet of this version. -/
def answerVersion (state : StartupState) (version : Int32) :
    Run FrontendError (StartupState ⊕ StartupState) :=
  if version = 80877103 ∨ version = 80877104 then
    pure (.inl { state with written := state.written ++ ofString "N" })
  else if version = 196608 then pure (.inr state)
  else .fail (protocolError "only PostgreSQL protocol 3.0 is supported")

/-- The body of the loop. -/
def startupRound (state : StartupState) : Run FrontendError (StartupState ⊕ StartupState) := do
  let (payload, stream) ← readStartupPayload state.stream
  if payload.length < 4 then .fail (protocolError "startup packet was too short")
  else
    let bytes ← slice payload 0 4
    let bytes ← intoArray 4 bytes
    answerVersion ⟨stream, state.written, payload⟩ (toInt32 bytes)

/-- The outcome of `read_startup`, with what it leaves of the stream and what it writes. -/
structure Startup where
  user : String
  database : Option String
  rest : List UInt8
  written : List UInt8
deriving DecidableEq, Repr

/-- `read_startup`. -/
def readStartup (stream : List UInt8) : Run FrontendError Startup := do
  let state ← Run.whileLoop (fun _ => pure true) startupRound (stream.length + 1) ⟨stream, [], []⟩
  let payload ← sliceFrom state.payload 4
  let parameters ← parseStartupParameters payload
  match parameters.get? "user" with
  | none => .fail (protocolError "startup packet did not contain a user")
  | some user => pure ⟨user, parameters.get? "database", state.stream, state.written⟩

end Server

/-! ## The client -/

namespace Client

/-- Keys and values, each with its zero. -/
def encodeParameters (parameters : List (String × String)) : List UInt8 :=
  parameters.flatMap fun parameter => ofString parameter.1 ++ 0 :: (ofString parameter.2 ++ [0])

/-- The payload of `write_startup_message`. -/
def startupPayload (user : String) (database : Option String) : List UInt8 :=
  ofInt32 196608 ++ (ofString "user" ++ 0 :: (ofString user ++ [0]) ++
    (match database with
      | some database => ofString "database" ++ 0 :: (ofString database ++ [0])
      | none => []) ++ [0])

/-- `write_startup_message`. -/
def startupMessage (user : String) (database : Option String) : List UInt8 :=
  ofInt32 (.ofNat ((startupPayload user database).length + 4)) ++ startupPayload user database

/-- A request for encryption in front of the startup. -/
inductive EncryptionRequest where
  | ssl
  | gss
deriving DecidableEq, Repr

/-- Its code. -/
def EncryptionRequest.code : EncryptionRequest → Int32
  | .ssl => 80877103
  | .gss => 80877104

/-- Its bytes: a length that counts itself, and the code. -/
def EncryptionRequest.bytes (request : EncryptionRequest) : List UInt8 := ofInt32 8 ++ ofInt32 request.code

/-- The parameters that `write_startup_message` writes. -/
def startupParameters (user : String) (database : Option String) : List (String × String) :=
  ("user", user) :: (database.map fun database => ("database", database)).toList

theorem startupPayload_eq (user : String) (database : Option String) :
    startupPayload user database =
      ofInt32 196608 ++ (encodeParameters (startupParameters user database) ++ [0]) := by
  cases database with
  | none => simp [startupPayload, encodeParameters, startupParameters]
  | some database => simp [startupPayload, encodeParameters, startupParameters]

end Client

open Server Client

/-! ## One string -/

/-- The first zero is behind the text. -/
theorem findIdx?_ofString {text : String} (h : ZeroFree text) (rest : List UInt8) :
    (ofString text ++ 0 :: rest).findIdx? (· = 0) = some (ofString text).length := by
  have hzero := zero_notMem_ofString h
  rw [List.findIdx?_append, List.findIdx?_eq_none_iff.mpr, List.findIdx?_cons]
  · simp
  · intro byte hbyte
    refine decide_eq_false fun heq => ?_
    rw [heq] at hbyte
    exact hzero hbyte

/-- A text with its zero is read where it stands. -/
theorem cstringAt_eq {ε : Type} (unterminated notText : ε) {text : String} (h : ZeroFree text)
    {front rest payload : List UInt8} (hpayload : payload = front ++ (ofString text ++ 0 :: rest))
    (hfits : payload.length ≤ isizeMax) :
    cstringAt unterminated notText payload front.length =
      pure (text, (front ++ (ofString text ++ [0])).length) := by
  subst hpayload
  have hlength : (front ++ (ofString text ++ 0 :: rest)).length =
      front.length + (ofString text).length + 1 + rest.length := by
    simp only [List.length_append, List.length_cons]
    omega
  rw [hlength, isizeMax] at hfits
  have hstop : front.length + (ofString text).length < usizeCard := by
    unfold usizeCard
    omega
  have hnext : front.length + (ofString text).length + 1 < usizeCard := by
    unfold usizeCard
    omega
  have hslice : ((front ++ (ofString text ++ 0 :: rest)).take (front.length + (ofString text).length)).drop
      front.length = ofString text := by
    rw [List.take_length_add_append, List.take_left' rfl, List.drop_left' rfl]
  rw [cstringAt, sliceFrom_eq (by rw [hlength]; omega), Run.pure_bind, List.drop_left' rfl, findIdx?_ofString h]
  dsimp only
  rw [add_eq hstop, Run.pure_bind, slice_eq (Nat.le_add_right _ _) (by rw [hlength]; omega), Run.pure_bind,
    hslice, toString?_ofString]
  dsimp only
  rw [add_eq hnext, Run.pure_bind]
  simp only [List.length_append, List.length_singleton, Nat.add_assoc]

/-! ## Parameters -/

/-- A parameter that can be written: its key ends nothing, and no text has a zero in it. -/
def Writable (parameter : String × String) : Prop :=
  parameter.1 ≠ "" ∧ ZeroFree parameter.1 ∧ ZeroFree parameter.2

instance (parameter : String × String) : Decidable (Writable parameter) := inferInstanceAs (Decidable (_ ∧ _ ∧ _))

/-- The map with these parameters put in, one after the other. -/
def insertAll (map : BTreeMap String String) (parameters : List (String × String)) : BTreeMap String String :=
  parameters.foldl (fun map parameter => map.insert parameter.1 parameter.2) map

/-- The last value of a key stays. -/
theorem get?_insertAll (map : BTreeMap String String) (parameters : List (String × String)) (key : String) :
    (insertAll map parameters).get? key = (lastValue key parameters).or (map.get? key) := by
  induction parameters generalizing map with
  | nil => rfl
  | cons parameter parameters ih =>
      have happend := lastValue_append key [parameter] parameters
      rw [List.singleton_append] at happend
      show (insertAll (map.insert parameter.1 parameter.2) parameters).get? key = _
      rw [ih, happend, BTreeMap.get?_insert, Option.or_assoc]
      congr 1
      by_cases hkey : key = parameter.1
      · rw [if_pos hkey, lastValue, List.filter_singleton, decide_eq_true hkey.symm]
        rfl
      · rw [if_neg hkey, lastValue, List.filter_singleton, decide_eq_false (Ne.symm hkey)]
        rfl

/-- A round reads a parameter. -/
theorem returns_parameterRound {payload front rest : List UInt8} {parameter : String × String}
    (h : Writable parameter) (map : BTreeMap String String)
    (hpayload : payload = front ++ (encodeParameters [parameter] ++ rest)) (hfits : payload.length ≤ isizeMax) :
    parameterRound payload (map, front.length) =
      pure (.inl (map.insert parameter.1 parameter.2, (front ++ encodeParameters [parameter]).length)) := by
  obtain ⟨hne, hkey, hvalue⟩ := h
  have hfirst : payload = front ++ (ofString parameter.1 ++ 0 :: (ofString parameter.2 ++ 0 :: rest)) := by
    rw [hpayload]
    simp [encodeParameters]
  have hsecond : payload = (front ++ (ofString parameter.1 ++ [0])) ++ (ofString parameter.2 ++ 0 :: rest) := by
    rw [hpayload]
    simp [encodeParameters]
  have hend : (front ++ (ofString parameter.1 ++ [0])) ++ (ofString parameter.2 ++ [0]) =
      front ++ encodeParameters [parameter] := by
    simp [encodeParameters]
  rw [parameterRound, Server.readCstringAt]
  dsimp only
  rw [cstringAt_eq _ _ hkey hfirst hfits, Run.pure_bind]
  dsimp only
  rw [if_neg hne, Server.readCstringAt, cstringAt_eq _ _ hvalue hsecond hfits, Run.pure_bind, hend]

/-- The empty key ends the scan. -/
theorem returns_parameterRound_end {payload front rest : List UInt8} (map : BTreeMap String String)
    (hpayload : payload = front ++ 0 :: rest) (hfits : payload.length ≤ isizeMax) :
    parameterRound payload (map, front.length) = pure (.inr (map, (front ++ [0]).length)) := by
  have hempty : ofString "" = [] := by decide
  have hzeroFree : ZeroFree "" := by decide
  have hfirst : payload = front ++ (ofString "" ++ 0 :: rest) := by
    rw [hpayload, hempty]
    rfl
  rw [parameterRound, Server.readCstringAt]
  dsimp only
  rw [cstringAt_eq _ _ hzeroFree hfirst hfits, Run.pure_bind]
  dsimp only
  rw [if_pos rfl, hempty, List.nil_append]

/-- There is something left to scan in front of the last byte. -/
theorem returns_inside {payload front rest rest' : List UInt8} (h : payload = front ++ (rest ++ 0 :: rest')) :
    Run.Returns (pure (decide (front.length < payload.length)) : Run FrontendError Bool) true := by
  have hlt : front.length < payload.length := by
    rw [h]
    simp only [List.length_append, List.length_cons]
    omega
  rw [decide_eq_true hlt]
  exact Run.returns_pure true

/-- The scan puts in the parameters that are left. -/
theorem returns_scan {payload front rest : List UInt8} {parameters : List (String × String)}
    (h : ∀ parameter ∈ parameters, Writable parameter) (map : BTreeMap String String)
    (hpayload : payload = front ++ (encodeParameters parameters ++ 0 :: rest))
    (hfits : payload.length ≤ isizeMax) {limit : ℕ} (hlimit : parameters.length < limit) :
    ∃ offset, Run.Returns (Run.whileLoop (fun state : BTreeMap String String × ℕ =>
      pure (decide (state.2 < payload.length))) (parameterRound payload) limit (map, front.length))
      (insertAll map parameters, offset) := by
  -- What is scanned already is in front, and in the map.
  induction parameters generalizing front map limit with
  | nil =>
      obtain ⟨limit, rfl⟩ := Nat.exists_eq_succ_of_ne_zero (Nat.ne_of_gt hlimit)
      refine ⟨(front ++ [0]).length, Run.returns_whileLoop_break (returns_inside hpayload) ?_⟩
      rw [returns_parameterRound_end map hpayload hfits]
      exact Run.returns_pure _
  | cons parameter parameters ih =>
      obtain ⟨limit, rfl⟩ := Nat.exists_eq_succ_of_ne_zero (Nat.ne_of_gt (Nat.zero_lt_of_lt hlimit))
      have hround : payload =
          front ++ (encodeParameters [parameter] ++ (encodeParameters parameters ++ 0 :: rest)) := by
        rw [hpayload]
        simp [encodeParameters]
      have hnext : payload =
          (front ++ encodeParameters [parameter]) ++ (encodeParameters parameters ++ 0 :: rest) := by
        rw [hround, List.append_assoc]
      obtain ⟨offset, hrest⟩ := ih (fun p hp => h p (List.mem_cons_of_mem _ hp))
        (map.insert parameter.1 parameter.2) hnext (Nat.lt_of_succ_lt_succ hlimit)
      refine ⟨offset, Run.returns_whileLoop_next (returns_inside hpayload) ?_ hrest⟩
      rw [returns_parameterRound (h parameter List.mem_cons_self) map hround hfits]
      exact Run.returns_pure _

/-- Each parameter takes two bytes at least. -/
theorem length_le_encodeParameters (parameters : List (String × String)) :
    parameters.length ≤ (encodeParameters parameters).length := by
  induction parameters with
  | nil => exact le_rfl
  | cons parameter parameters ih =>
      unfold encodeParameters at ih ⊢
      rw [List.flatMap_cons, List.length_append, List.length_cons]
      simp only [List.length_append, List.length_cons]
      omega

/-- `parse_startup_parameters` undoes the encoding, whatever comes behind the empty key. -/
theorem returns_parseStartupParameters {parameters : List (String × String)}
    (h : ∀ parameter ∈ parameters, Writable parameter) {rest : List UInt8}
    (hfits : (encodeParameters parameters ++ 0 :: rest).length ≤ isizeMax) :
    Run.Returns (parseStartupParameters (encodeParameters parameters ++ 0 :: rest))
      (insertAll BTreeMap.empty parameters) := by
  have hlimit : parameters.length < (encodeParameters parameters ++ 0 :: rest).length := by
    have := length_le_encodeParameters parameters
    rw [List.length_append, List.length_cons]
    omega
  have hpayload : encodeParameters parameters ++ 0 :: rest =
      [] ++ (encodeParameters parameters ++ 0 :: rest) := (List.nil_append _).symm
  obtain ⟨offset, hscan⟩ := returns_scan h BTreeMap.empty hpayload hfits hlimit
  exact hscan.bind (Run.returns_pure _)

/-! ## Packets -/

/-- A packet that counts itself is read back, and no more than it. -/
theorem returns_readStartupPayload {payload : List UInt8} (h : 4 ≤ payload.length)
    (hlimit : payload.length + 4 ≤ 16 * 1024 * 1024) (rest : List UInt8) :
    readStartupPayload (ofInt32 (.ofNat (payload.length + 4)) ++ payload ++ rest) = pure (payload, rest) := by
  have hint : (Int32.ofNat (payload.length + 4)).toInt = payload.length + 4 := by
    rw [Int32.toInt_ofNat_of_lt]
    · rfl
    · omega
  have hrange : (8 : Int32) ≤ Int32.ofNat (payload.length + 4) ∧
      Int32.ofNat (payload.length + 4) ≤ 16 * 1024 * 1024 := by
    rw [Int32.le_iff_toInt_le, Int32.le_iff_toInt_le, hint]
    have hmax : (16 * 1024 * 1024 : Int32).toInt = 16 * 1024 * 1024 := by decide
    have hmin : (8 : Int32).toInt = 8 := by decide
    rw [hmax, hmin]
    omega
  have husize : asUsize (Int32.ofNat (payload.length + 4)).toInt = payload.length + 4 := by
    rw [hint, asUsize_of_nonneg (by omega) (by omega)]
    omega
  have hroom : 1 * (payload.length + 4 - 4) ≤ isizeMax := by
    unfold isizeMax
    omega
  rw [readStartupPayload, Server.readI32, List.append_assoc, readExact, split_append (length_ofInt32 _)]
  dsimp only
  rw [Run.pure_bind, Run.pure_bind]
  dsimp only
  rw [toInt32_ofInt32, if_pos hrange, readPayload, husize, sub_eq (Nat.le_add_left 4 _), Run.pure_bind,
    allocate_eq hroom, Run.pure_bind, Nat.add_sub_cancel, readExact, split_append rfl]

/-- A round of the loop, on a packet of this version. -/
theorem startupRound_eq (version : Int32) {content : List UInt8}
    (hlimit : content.length + 8 ≤ 16 * 1024 * 1024) (rest written last : List UInt8) :
    startupRound ⟨ofInt32 (.ofNat ((ofInt32 version ++ content).length + 4)) ++ (ofInt32 version ++ content) ++
      rest, written, last⟩ = answerVersion ⟨rest, written, ofInt32 version ++ content⟩ version := by
  have hlength : (ofInt32 version ++ content).length = content.length + 4 := by
    rw [List.length_append, length_ofInt32]
    omega
  have hslice : ((ofInt32 version ++ content).take 4).drop 0 = ofInt32 version := by
    rw [List.drop_zero, List.take_left' (length_ofInt32 version)]
  rw [startupRound, returns_readStartupPayload (by omega) (by omega), Run.pure_bind]
  dsimp only
  rw [if_neg (by omega), slice_eq (Nat.zero_le 4) (by omega), Run.pure_bind, hslice,
    intoArray_eq (length_ofInt32 version), Run.pure_bind, toInt32_ofInt32]

/-- A request for encryption is answered with an `N`. -/
theorem startupRound_request (request : EncryptionRequest) (rest written last : List UInt8) :
    startupRound ⟨request.bytes ++ rest, written, last⟩ =
      pure (.inl ⟨rest, written ++ ofString "N", ofInt32 request.code⟩) := by
  have hbytes : request.bytes =
      ofInt32 (.ofNat ((ofInt32 request.code ++ []).length + 4)) ++ (ofInt32 request.code ++ []) := by
    rw [List.append_nil, length_ofInt32]
    rfl
  have hcode : request.code = 80877103 ∨ request.code = 80877104 := by
    cases request with
    | ssl => exact .inl rfl
    | gss => exact .inr rfl
  rw [hbytes, startupRound_eq request.code (by decide), answerVersion, if_pos hcode, List.append_nil]

/-- The startup is taken. -/
theorem startupRound_startup {user : String} {database : Option String}
    (hlimit : (startupPayload user database).length + 4 ≤ 16 * 1024 * 1024) (rest written last : List UInt8) :
    startupRound ⟨startupMessage user database ++ rest, written, last⟩ =
      pure (.inr ⟨rest, written, startupPayload user database⟩) := by
  rw [startupPayload_eq, List.length_append, length_ofInt32] at hlimit
  rw [startupMessage, startupPayload_eq, startupRound_eq 196608 (by omega)]
  rfl

/-- The loop turns the requests down one by one, and ends with the startup. -/
theorem returns_startupLoop {user : String} {database : Option String}
    (hlimit : (startupPayload user database).length + 4 ≤ 16 * 1024 * 1024) (requests : List EncryptionRequest)
    (rest written last : List UInt8) {limit : ℕ} (h : requests.length < limit) :
    Run.Returns (Run.whileLoop (fun _ => pure true) startupRound limit
      ⟨requests.flatMap EncryptionRequest.bytes ++ (startupMessage user database ++ rest), written, last⟩)
      ⟨rest, written ++ (requests.map fun _ => ofString "N").flatten, startupPayload user database⟩ := by
  induction requests generalizing written last limit with
  | nil =>
      obtain ⟨limit, rfl⟩ := Nat.exists_eq_succ_of_ne_zero (Nat.ne_of_gt h)
      refine Run.returns_whileLoop_break (Run.returns_pure true) ?_
      rw [List.flatMap_nil, List.nil_append, startupRound_startup hlimit, List.map_nil, List.flatten_nil,
        List.append_nil]
      exact Run.returns_pure _
  | cons request requests ih =>
      obtain ⟨limit, rfl⟩ := Nat.exists_eq_succ_of_ne_zero (Nat.ne_of_gt (Nat.zero_lt_of_lt h))
      have hrest := ih (written ++ ofString "N") (ofInt32 request.code) (Nat.lt_of_succ_lt_succ h)
      rw [List.map_cons, List.flatten_cons, ← List.append_assoc written]
      refine Run.returns_whileLoop_next (Run.returns_pure true) ?_ hrest
      rw [List.flatMap_cons, List.append_assoc, startupRound_request]
      exact Run.returns_pure _

/-! ## The whole -/

/-- What a startup names. -/
theorem get?_startupParameters (user : String) (database : Option String) :
    (insertAll BTreeMap.empty (startupParameters user database)).get? "user" = some user ∧
      (insertAll BTreeMap.empty (startupParameters user database)).get? "database" = database := by
  rw [get?_insertAll, get?_insertAll]
  cases database with
  | none => simp [startupParameters, lastValue]
  | some database => simp [startupParameters, lastValue]

/-- `read_startup` finds the user and the database of the client behind any requests for encryption. -/
theorem returns_readStartup {user : String} {database : Option String} (huser : ZeroFree user)
    (hdatabase : ∀ name ∈ database, ZeroFree name)
    (hlimit : (startupPayload user database).length + 4 ≤ 16 * 1024 * 1024) (requests : List EncryptionRequest)
    (rest : List UInt8) :
    Run.Returns
      (readStartup (requests.flatMap EncryptionRequest.bytes ++ (startupMessage user database ++ rest)))
      ⟨user, database, rest, (requests.map fun _ => ofString "N").flatten⟩ := by
  have hwritable : ∀ parameter ∈ startupParameters user database, Writable parameter := by
    intro parameter hmem
    have hkeys : ("user" ≠ "" ∧ ZeroFree "user") ∧ "database" ≠ "" ∧ ZeroFree "database" := by decide
    rw [startupParameters, List.mem_cons] at hmem
    rcases hmem with rfl | hmem
    · exact ⟨hkeys.1.1, hkeys.1.2, huser⟩
    · rw [Option.mem_toList, Option.map_eq_some_iff] at hmem
      obtain ⟨name, hname, rfl⟩ := hmem
      exact ⟨hkeys.2.1, hkeys.2.2, hdatabase name hname⟩
  -- A request has eight bytes, and so the stream bounds the rounds.
  have hlength : requests.length < (requests.flatMap EncryptionRequest.bytes ++
      (startupMessage user database ++ rest)).length + 1 := by
    have hrequests : requests.length ≤ (requests.flatMap EncryptionRequest.bytes).length := by
      rw [List.length_flatMap]
      have hone : ∀ request : EncryptionRequest, request.bytes.length = 8 := by
        intro request
        rw [EncryptionRequest.bytes, List.length_append, length_ofInt32, length_ofInt32]
      simp only [hone, List.map_const', List.sum_replicate, smul_eq_mul]
      omega
    rw [List.length_append]
    omega
  have hloop := returns_startupLoop hlimit requests rest [] [] hlength
  rw [List.nil_append] at hloop
  refine hloop.bind ?_
  have hpayload := startupPayload_eq user database
  have hfour : 4 ≤ (startupPayload user database).length := by
    rw [hpayload, List.length_append, length_ofInt32]
    omega
  have hdrop : (startupPayload user database).drop 4 =
      encodeParameters (startupParameters user database) ++ 0 :: [] := by
    rw [hpayload, List.drop_left' (length_ofInt32 _)]
  dsimp only
  rw [sliceFrom_eq hfour, Run.pure_bind, hdrop]
  have hfits : (encodeParameters (startupParameters user database) ++ 0 :: []).length ≤ isizeMax := by
    rw [← hdrop, List.length_drop]
    unfold isizeMax
    omega
  refine (returns_parseStartupParameters hwritable hfits).bind ?_
  obtain ⟨hget, hget'⟩ := get?_startupParameters user database
  rw [hget, hget']
  exact Run.returns_pure _

/-- One byte for each request. -/
theorem answers_eq (requests : List EncryptionRequest) :
    (requests.map fun _ => ofString "N").flatten = List.replicate requests.length 'N'.toUInt8 := by
  have hone : ofString "N" = ['N'.toUInt8] := by decide
  induction requests with
  | nil => rfl
  | cons request requests ih =>
      rw [List.map_cons, List.flatten_cons, ih, hone, List.length_cons, List.replicate_succ]
      rfl

/-- Startup parsing undoes startup encoding: the scan gives each key its last value, and the server finds what the
client names behind any requests for encryption, uses up no byte of what follows and answers each request. -/
theorem startup_undoes_encoding :
    (∀ (parameters : List (String × String)) (rest : List UInt8),
      (∀ parameter ∈ parameters, Writable parameter) →
      (encodeParameters parameters ++ 0 :: rest).length ≤ isizeMax →
      ∃ map, Run.Returns (parseStartupParameters (encodeParameters parameters ++ 0 :: rest)) map ∧
        ∀ key, map.get? key = lastValue key parameters) ∧
    ∀ (user : String) (database : Option String) (requests : List EncryptionRequest) (rest : List UInt8),
      ZeroFree user → (∀ name ∈ database, ZeroFree name) →
      (startupPayload user database).length + 4 ≤ 16 * 1024 * 1024 →
      Run.Returns
        (readStartup (requests.flatMap EncryptionRequest.bytes ++ (startupMessage user database ++ rest)))
        ⟨user, database, rest, List.replicate requests.length 'N'.toUInt8⟩ := by
  constructor
  · intro parameters rest hwritable hfits
    refine ⟨_, returns_parseStartupParameters hwritable hfits, fun key => ?_⟩
    rw [get?_insertAll, BTreeMap.get?_empty, Option.or_none]
  · intro user database requests rest huser hdatabase hlimit
    have hread := returns_readStartup huser hdatabase hlimit requests rest
    rw [answers_eq] at hread
    exact hread

/-- A key given twice with an empty value in between, and a startup behind two requests. -/
theorem startup_undoes_encoding_twice :
    (∃ map, Run.Returns
        (parseStartupParameters (encodeParameters [("a", "x"), ("b", ""), ("a", "y")] ++ [0, 7])) map ∧
      ∀ key, map.get? key = lastValue key [("a", "x"), ("b", ""), ("a", "y")]) ∧
    Run.Returns (readStartup (([.ssl, .gss] : List EncryptionRequest).flatMap EncryptionRequest.bytes ++
      (startupMessage "brew" (some "sales") ++ [81]))) ⟨"brew", some "sales", [81], ['N'.toUInt8, 'N'.toUInt8]⟩ :=
  ⟨startup_undoes_encoding.1 [("a", "x"), ("b", ""), ("a", "y")] [7] (by decide) (by decide),
    startup_undoes_encoding.2 "brew" (some "sales") [.ssl, .gss] [81] (by decide) (by decide) (by decide)⟩

end BrewDB.PgWire
