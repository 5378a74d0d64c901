import RedisClone.Utils

/-! # `set_handler.c` -/

namespace RedisClone

open CString

variable {D : Type} [Externals D]

/-! ## The member list -/

/-- Unlink the first node of the member. -/
def removeMember (member : Bytes) : List (ZSetEntry D) → List (ZSetEntry D)
  | [] => []
  | curr :: rest => if curr.member = member then rest else curr :: removeMember member rest

/-- `zset_remove`; the flag is its return value. -/
def zsetRemove (sortedSet : ZSet D) (member : Bytes) : ZSet D × Bool :=
  if sortedSet.entries.any fun curr => curr.member = member then
    (⟨removeMember member sortedSet.entries, sortedSet.length - 1⟩, true)
  else (sortedSet, false)

/-- The condition under which the loop of `zset_add` passes a node. -/
def isBefore (curr : ZSetEntry D) (score : D) (member : Bytes) : Bool :=
  Externals.lt curr.score score ||
    (Externals.eq curr.score score && strcmpLt curr.member member)

def insertMember (score : D) (member : Bytes) : List (ZSetEntry D) → List (ZSetEntry D)
  | [] => [⟨member, score⟩]
  | curr :: rest =>
    if isBefore curr score member then curr :: insertMember score member rest
    else ⟨member, score⟩ :: curr :: rest

def zsetAdd (sortedSet : ZSet D) (score : D) (member : Bytes) : ZSet D :=
  ⟨insertMember score member sortedSet.entries, sortedSet.length + 1⟩

/-- The sorted set of a key: the stored one, or a new one that is bound to the key first. -/
def openZSet (key : Bytes) : M D (ZSet D) :=
  withPayload key asZSet (do storeSetZset key ⟨[], 0⟩; pure ⟨[], 0⟩) pure

/-! ## Sorted set commands -/

def scorePairs : List Bytes → List (Bytes × Bytes)
  | score :: member :: rest => (score, member) :: scorePairs rest
  | _ => []

/-- One round of the loop of `handle_zadd`: the set, and how many members were created. -/
def addPair (state : ZSet D × Nat) (pair : Bytes × Bytes) : ZSet D × Nat :=
  let newScore : D := Externals.atof pair.1
  let (removed, existed) := zsetRemove state.1 pair.2
  (zsetAdd removed newScore pair.2, if existed then state.2 else state.2 + 1)

def handleZadd (req : RespRequest) (clientFd : Int) : M D Unit :=
  if req.argc < 3 then pure ()
  else if (req.argc - 1).tmod 2 ≠ 0 then send clientFd (lit "-ERR Not valid request\r\n")
  else do
    let key ← req.arg 0
    let sortedSet ← openZSet key
    if 1 < (req.argc - 1).tdiv 2 then do
      let (changed, created) := (scorePairs (req.args.drop 1)).foldl addPair (sortedSet, 0)
      updateEntry key (.zset changed)
      sendText 128 clientFd (integerReply created)
    else do
      let newScore : D := Externals.atof (← req.arg 1)
      let member ← req.arg 2
      let (removed, existed) := zsetRemove sortedSet member
      updateEntry key (.zset (zsetAdd removed newScore member))
      if existed then send clientFd (lit ":0\r\n") else send clientFd (lit ":1\r\n")

def handleZrank (req : RespRequest) (clientFd : Int) : M D Unit :=
  if req.argc < 2 then pure ()
  else do
    let key ← req.arg 0
    withPayload key asZSet (send clientFd nilReply) fun sortedSet => do
      let member ← req.arg 1
      match (sortedSet.entries.take sortedSet.length).findIdx? fun entry => entry.member = member with
      | some i => send clientFd (integerReply i)
      | none => send clientFd nilReply

/-- The loop of `handle_zrange` over `remaining` nodes. -/
def appendMembers (size : Nat) :
    (remaining : Nat) → List (ZSetEntry D) → Buffer → M D Buffer
  | 0, _, buffer => pure buffer
  | _ + 1, [], _ => fault .nullDeref
  | remaining + 1, entry :: entries, buffer => do
    let text := bulk entry.member
    let printed ← buffer.print size text
    if printed.offset + text.length < size then
      appendMembers size remaining entries { printed with offset := printed.offset + text.length }
    else pure printed

/-- `startIndex` and `endIndex` after the range checks. -/
def zrangeBounds (setLen startIndex endIndex : Int) : Int × Int :=
  let startIndex := if startIndex < 0 then startIndex + setLen else startIndex
  let endIndex := if endIndex < 0 then endIndex + setLen else endIndex
  let startIndex := if startIndex < 0 then 0 else startIndex
  let endIndex := if setLen ≤ endIndex then setLen - 1 else endIndex
  (startIndex, endIndex)

def handleZrange (req : RespRequest) (clientFd : Int) : M D Unit :=
  if req.argc < 3 then pure ()
  else do
    let key ← req.arg 0
    withPayload key asZSet (send clientFd emptyArray) fun sortedSet => do
      let first ← req.arg 1
      let last ← req.arg 2
      let setLen : Int := sortedSet.length
      let (startIndex, endIndex) := zrangeBounds setLen (atoi first) (atoi last)
      if endIndex < startIndex ∨ setLen ≤ startIndex then send clientFd emptyArray
      else if sortedSet.entries.length < startIndex.toNat then fault .nullDeref
      else do
        let count := endIndex - startIndex + 1
        let header := arrayHeader count
        let members ← appendMembers 4096 count.toNat (sortedSet.entries.drop startIndex.toNat)
          ⟨header, header.length⟩
        members.sendPrefix 4096 clientFd

def handleZcard (req : RespRequest) (clientFd : Int) : M D Unit :=
  if req.argc < 1 then pure ()
  else do
    let key ← req.arg 0
    withPayload key asZSet (send clientFd (lit ":0\r\n")) fun sortedSet =>
      sendText 128 clientFd (integerReply sortedSet.length)

/-- The bulk string of a number printed with `%.17g` into 64 bytes. -/
def doubleBulk (value : D) : Bytes := bulk ((Externals.printG17 value).take 63)

def handleZscore (req : RespRequest) (clientFd : Int) : M D Unit :=
  if req.argc < 2 then pure ()
  else do
    let key ← req.arg 0
    withPayload key asZSet (send clientFd nilReply) fun sortedSet => do
      let member ← req.arg 1
      match (sortedSet.entries.take sortedSet.length).find? fun entry => entry.member = member with
      | some entry => sendText 128 clientFd (doubleBulk entry.score)
      | none =>
        if sortedSet.entries.length < sortedSet.length then fault .nullDeref
        else send clientFd nilReply

/-- One round of the loop of `handle_zrem`: the set, and how many members were removed. -/
def removeOne (state : ZSet D × Nat) (member : Bytes) : ZSet D × Nat :=
  let (changed, removed) := zsetRemove state.1 member
  (changed, if removed then state.2 + 1 else state.2)

def handleZrem (req : RespRequest) (clientFd : Int) : M D Unit :=
  if req.argc < 2 then pure ()
  else do
    let key ← req.arg 0
    withPayload key asZSet (send clientFd (lit ":0\r\n")) fun sortedSet => do
      let (changed, totalRemoved) := (req.args.drop 1).foldl removeOne (sortedSet, 0)
      updateEntry key (.zset changed)
      send clientFd (integerReply totalRemoved)

/-- `getMember` -/
def getMember (member : Bytes) (entries : List (ZSetEntry D)) : Option (ZSetEntry D) :=
  entries.find? fun entry => entry.member = member

/-! ## Geohashes -/

def maxLatitude : D := Externals.constant 8505112878 8

def minLatitude : D := Externals.constant (-8505112878) 8

def latitudeSpan : D := Externals.constant 17010225756 8

def validateGeoadd (longtitude latitude : D) : Bool :=
  (Externals.le longtitude (Externals.ofInt 180) &&
    Externals.le (Externals.ofInt (-180)) longtitude) &&
  (Externals.le latitude maxLatitude && Externals.le minLatitude latitude)

def spread64 (v : BitVec 64) : BitVec 64 :=
  let v := v &&& 0xFFFFFFFF
  let v := (v ||| (v <<< 16)) &&& 0x0000FFFF0000FFFF
  let v := (v ||| (v <<< 8)) &&& 0x00FF00FF00FF00FF
  let v := (v ||| (v <<< 4)) &&& 0x0F0F0F0F0F0F0F0F
  let v := (v ||| (v <<< 2)) &&& 0x3333333333333333
  (v ||| (v <<< 1)) &&& 0x5555555555555555

def compact64 (v : BitVec 64) : BitVec 64 :=
  let v := v &&& 0x5555555555555555
  let v := (v ||| (v >>> 1)) &&& 0x3333333333333333
  let v := (v ||| (v >>> 2)) &&& 0x0F0F0F0F0F0F0F0F
  let v := (v ||| (v >>> 4)) &&& 0x00FF00FF00FF00FF
  let v := (v ||| (v >>> 8)) &&& 0x0000FFFF0000FFFF
  (v ||| (v >>> 16)) &&& 0x00000000FFFFFFFF

/-- `(double)(1ULL << 26)` -/
def cellCount : D := Externals.ofInt (2 ^ 26)

def geoEncode (longitude latitude : D) : BitVec 64 :=
  let normLon := Externals.div (Externals.add longitude (Externals.ofInt 180)) (Externals.ofInt 360)
  let normLat := Externals.div (Externals.add latitude maxLatitude) latitudeSpan
  let latInt := Externals.toWord (Externals.mul normLat cellCount)
  let lonInt := Externals.toWord (Externals.mul normLon cellCount)
  (spread64 lonInt <<< 1) ||| spread64 latInt

/-- The middle of a cell, as a share of the range. -/
def cellMiddle (cell : BitVec 64) : D :=
  Externals.div (Externals.add (Externals.ofWord cell) (Externals.constant 5 1)) cellCount

def geoDecode (hash : BitVec 64) : D × D :=
  let lonInt := compact64 (hash >>> 1)
  let latInt := compact64 hash
  (Externals.sub (Externals.mul (cellMiddle lonInt) (Externals.ofInt 360)) (Externals.ofInt 180),
   Externals.sub (Externals.mul (cellMiddle latInt) latitudeSpan) maxLatitude)

/-- `(uint64_t)llround(score)` -/
def scoreHash (score : D) : BitVec 64 := BitVec.ofInt 64 (Externals.llround score)

def haversineDistance (score1 score2 : D) : D :=
  let degree : D := Externals.div (Externals.constant 314159265358979323846 20) (Externals.ofInt 180)
  let (lon1, lat1) := geoDecode (D := D) (scoreHash score1)
  let (lon2, lat2) := geoDecode (D := D) (scoreHash score2)
  let lon1 := Externals.mul lon1 degree
  let lat1 := Externals.mul lat1 degree
  let lon2 := Externals.mul lon2 degree
  let lat2 := Externals.mul lat2 degree
  let two : D := Externals.ofInt 2
  let latDelta := Externals.fabs (Externals.sub lat1 lat2)
  let lonDelta := Externals.fabs (Externals.sub lon1 lon2)
  let a := Externals.add
    (Externals.pow (Externals.sin (Externals.div latDelta two)) two)
    (Externals.mul (Externals.mul (Externals.cos lat1) (Externals.cos lat2))
      (Externals.pow (Externals.sin (Externals.div lonDelta two)) two))
  let c := Externals.mul two
    (Externals.atan2 (Externals.sqrt a) (Externals.sqrt (Externals.sub (Externals.ofInt 1) a)))
  Externals.mul (Externals.constant 6372797560856 6) c

/-! ## Geo commands -/

def geoTriples : List Bytes → List (Bytes × Bytes × Bytes)
  | longtitude :: latitude :: member :: rest => (longtitude, latitude, member) :: geoTriples rest
  | _ => []

def invalidPair (longtitude latitude : D) : Bytes :=
  lit "-ERR invalid longitude,latitude pair " ++ Externals.printG17 longtitude ++ lit "," ++
    Externals.printG17 latitude ++ crlf

/-- The loop that fills the arguments of the ZADD request, or the error reply of the first pair
outside the range. -/
def geoScores : List (Bytes × Bytes × Bytes) → Except Bytes (List Bytes)
  | [] => .ok []
  | (longtitudeText, latitudeText, member) :: triples =>
    let longtitude : D := Externals.atof longtitudeText
    let latitude : D := Externals.atof latitudeText
    if validateGeoadd longtitude latitude then
      let score : D := Externals.ofWord (geoEncode longtitude latitude)
      match geoScores triples with
      | .error errorReply => .error errorReply
      | .ok args => .ok ((Externals.printG17 score).take 63 :: member :: args)
    else .error (invalidPair longtitude latitude)

/-- `newReq`, of which `handle_zadd` reads no more than the arguments. -/
def zaddRequest (args : List Bytes) : RespRequest :=
  ⟨.zadd, args, args.length, .indeterminate, by simp⟩

def handleGeoadd (req : RespRequest) (clientFd : Int) : M D Unit :=
  if req.argc < 4 then pure ()
  else do
    let key ← req.arg 0
    match geoScores (D := D) (geoTriples (req.args.drop 1)) with
    | .error invalidGeoMsg => sendText 1024 clientFd invalidGeoMsg
    | .ok args => handleZadd (zaddRequest (key :: args)) clientFd

/-- The reply for one member of GEOPOS. -/
def geoposText (entries : List (ZSetEntry D)) (member : Bytes) : Bytes :=
  match getMember member entries with
  | none => nilArray
  | some entry =>
    let (lon, lat) := geoDecode (D := D) (scoreHash entry.score)
    lit "*2\r\n" ++ doubleBulk lon ++ doubleBulk lat

/-- The header and one text for every member, in an array of the given size. -/
def sendPositions (size : Nat) (req : RespRequest) (clientFd : Int) (text : Bytes → Bytes) :
    M D Unit := do
  let header := arrayHeader (req.argc - 1)
  let msg ← Buffer.appendAll size ((req.args.drop 1).map text) ⟨header, header.length⟩
  msg.sendPrefix size clientFd

def handleGeopos (req : RespRequest) (clientFd : Int) : M D Unit :=
  if req.argc < 2 then pure ()
  else do
    let key ← req.arg 0
    withPayload key asZSet (sendPositions 4096 req clientFd fun _ => nilArray) fun sortedSet =>
      sendPositions 8192 req clientFd (geoposText sortedSet.entries)

def handleGeodist (req : RespRequest) (clientFd : Int) : M D Unit :=
  if req.argc < 3 then pure ()
  else do
    let key ← req.arg 0
    withPayload key asZSet (send clientFd nilReply) fun sortedSet => do
      let member1 := getMember (← req.arg 1) sortedSet.entries
      let member2 := getMember (← req.arg 2) sortedSet.entries
      match member1, member2 with
      | some entry1, some entry2 =>
        let dis := haversineDistance entry1.score entry2.score
        sendText 4096 clientFd (bulk ((Externals.printG17 dis).take 2047))
      | _, _ => send clientFd (lit "-ERR member dont exist\r\n")

/-- `wantedRange` in metres, by the first character of the unit. -/
def scaleRange (unit : UInt8) (wantedRange : D) : D :=
  if unit = 107 then Externals.mul wantedRange (Externals.ofInt 1000)
  else if unit = 99 then Externals.div wantedRange (Externals.ofInt 100)
  else wantedRange

/-- The loop over `length` nodes from `head`; the result is the text and `membersCount`. -/
def selectMembers (score1 wantedRange : D) :
    (remaining : Nat) → List (ZSetEntry D) → Buffer → (membersCount : Nat) → M D (Buffer × Nat)
  | 0, _, buffer, membersCount => pure (buffer, membersCount)
  | _ + 1, [], _, _ => fault .nullDeref
  | remaining + 1, entry :: entries, buffer, membersCount =>
    if Externals.le (haversineDistance score1 entry.score) wantedRange then do
      let text := bulk entry.member
      let printed ← buffer.print 1024 text
      if printed.offset + text.length < 1024 then
        selectMembers score1 wantedRange remaining entries
          { printed with offset := printed.offset + text.length } (membersCount + 1)
      else pure (printed, membersCount)
    else selectMembers score1 wantedRange remaining entries buffer membersCount

def handleGeosearch (req : RespRequest) (clientFd : Int) : M D Unit :=
  if req.argc < 7 then pure ()
  else do
    let key ← req.arg 0
    let sortedSet ← openZSet key
    let unit := ((← req.arg 6).head?).getD 0
    let wantedRange := scaleRange unit (Externals.atof (← req.arg 5) : D)
    let longtitude : D := Externals.atof (← req.arg 2)
    let latitude : D := Externals.atof (← req.arg 3)
    let score1 : D := Externals.ofWord (geoEncode longtitude latitude)
    let (members, membersCount) ←
      selectMembers score1 wantedRange sortedSet.length sortedSet.entries {} 0
    if membersCount ≠ 0 then
      -- `%s` prints the text that did not fit whole too
      sendText 2048 clientFd (arrayHeader membersCount ++ members.content)
    else send clientFd emptyArray

end RedisClone
