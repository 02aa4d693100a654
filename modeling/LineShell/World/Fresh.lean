import LineShell.Files.Planting
import LineShell.World

/-!
# A world to begin with

The least file tree that programs expect: a directory for programs, a shell in it with two
programs that only succeed or fail, a place for scratch files and a device that swallows
everything. The shell's file starts with its signature, by which a host knows it under whatever
name it is called.
-/

namespace LineShell.World

def shellSignature : Bytes := [0x7F, 0x45, 0x4C, 0x46] ++ bytesOf "\x02\x01\x01script shell\n"

def dawn : Time.Instant := { seconds := 1700000000 }

def systemPlant (path : String) (kind : Files.PlantKind) (mode : Nat) : Files.Plant :=
  { path := bytesOf path, kind, mode, modified := dawn }

def endingProgram (code : Nat) : Bytes := bytesOf s!"#!/bin/sh\nexit {code}\n"

def systemPlants : List Files.Plant := [
  systemPlant "/usr/bin/sh" (.file shellSignature) 0o755,
  systemPlant "/usr/bin/true" (.file (endingProgram 0)) 0o755,
  systemPlant "/usr/bin/false" (.file (endingProgram 1)) 0o755,
  systemPlant "/bin" (.link (bytesOf "usr/bin")) Files.linkMode,
  systemPlant "/usr/local/bin" .directory 0o755,
  systemPlant "/etc" .directory 0o755,
  systemPlant "/home" .directory 0o755,
  systemPlant "/root" .directory 0o700,
  systemPlant "/tmp" .directory 0o1777]

def systemTree : Files.FileTree :=
  let t := Files.FileTree.empty dawn
  let t := (t.plantAll Files.FileTree.root dawn systemPlants).toOption.getD t
  match t.makeDirectories Files.FileTree.root dawn [bytesOf "dev"] with
  | .ok (dir, t) => (t.add dir (bytesOf "null") ⟨.device, 0o666, 0, dawn⟩ dawn).2
  | .error _ => t

def fresh : World where
  files := systemTree
  cwd := Files.FileTree.root
  user := .superuser
  now := dawn
  clock := .utc
  umask := 0o022
  environment := []
  users := [(0, "root")]
  lastPid := 1

end LineShell.World
