import RedisClone.Utils

/-! # `auth_handler.c` -/

namespace RedisClone

open CString

variable {D : Type}

def noPassFlags : Bytes := lit "*4\r\n$5\r\nflags\r\n*1\r\n$6\r\nnopass\r\n$9\r\npasswords\r\n*0\r\n"

def handleGetuser (req : RespRequest) (ptr : ClientPtr) : M D Unit := do
  let user ← req.arg 1
  let client ← loadClient ptr
  if upper user = lit "DEFAULT" then do
    let nopass ← Exec.observe World.defaultHasNopass
    if nopass then send client.fd noPassFlags
    else do
      let password ← Exec.observe World.defaultPassword
      sendText 1026 client.fd
        (lit "*4\r\n$5\r\nflags\r\n*0\r\n$9\r\npasswords\r\n*1\r\n" ++ bulk password)
  else send client.fd (lit "*2\r\n$5\r\nflags\r\n*0\r\n")

/-- `default_has_nopass` is cleared whatever the user name is. -/
def handleSetuser [Externals D] (req : RespRequest) (ptr : ClientPtr) : M D Unit := do
  let client ← loadClient ptr
  if req.argc < 3 then send client.fd (lit "-ERR bad request sonion\r\n")
  else do
    let rule ← req.arg 2
    if rule.head? ≠ some 62 then send client.fd (lit "-ERR bad request sonion\r\n")
    else do
      Exec.alter fun w => { w with defaultHasNopass := false }
      let user ← req.arg 1
      if upper user = lit "DEFAULT" then do
        Exec.alter fun w => { w with defaultPassword := Externals.sha256Hex D rule.tail }
        send client.fd okReply
      else pure ()

def handleAcl [Externals D] (req : RespRequest) (ptr : ClientPtr) : M D Unit := do
  let subCmd ← req.arg 0
  let client ← loadClient ptr
  if upper subCmd = lit "WHOAMI" then do
    let nopass ← Exec.observe World.defaultHasNopass
    if client.isAuth || nopass then send client.fd (lit "$7\r\ndefault\r\n")
    else send client.fd (lit "-NOAUTH Authentication required.\r\n")
  else if upper subCmd = lit "GETUSER" then handleGetuser req ptr
  else if upper subCmd = lit "SETUSER" then do
    handleSetuser req ptr
    updateClient ptr fun client => { client with isAuth := true }
  else pure ()

def handleAuth [Externals D] (req : RespRequest) (ptr : ClientPtr) : M D Unit :=
  if req.argc < 2 then pure ()
  else do
    let input ← req.arg 1
    let password ← Exec.observe World.defaultPassword
    let client ← loadClient ptr
    if password = Externals.sha256Hex D input then do
      updateClient ptr fun client => { client with isAuth := true }
      send client.fd okReply
    else
      send client.fd (lit "-WRONGPASS invalid username-password pair or user is disabled\r\n")

end RedisClone
