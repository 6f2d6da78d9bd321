import SlStatus.Table

/-! `config.def.h`, the configuration the program is built with unless the user writes one. -/

namespace SlStatus.DefaultConfig
open CString Table

def BACKLIGHT_SIGNAL : Int := 1
def NM_SIGNAL : Int := 3
def PA_SIGNAL : Int := 4
def PPD_SIGNAL : Int := 5
def UPOWER_SIGNAL : Int := 6

inductive Component where
  | nmLine | keymap | paLine | backlightLine | upowerLine | ppdLine | datetime
  deriving DecidableEq

def space : Text := ⟨[0x20], by decide⟩

/-- `" %s "`. -/
def spaced : Format := ⟨space, space⟩

/-- The keyboard sign between two blanks, then `"%s "`. -/
def keyboardIcon : Format := ⟨⟨[0x20, 0xF3, 0xB0, 0x8C, 0x8C, 0x20], by decide⟩, space⟩

/-- The calendar sign between two blanks, then `"%s"`. -/
def calendarIcon : Format := ⟨⟨[0x20, 0xEF, 0x81, 0xB3, 0x20], by decide⟩, Text.empty⟩

def args : List (Arg Component) :=
  [ ⟨.nmLine, spaced, 0, NM_SIGNAL⟩,
    ⟨.nmLine, spaced, 0, NM_SIGNAL⟩,
    ⟨.keymap, keyboardIcon, 1, -1⟩,
    ⟨.paLine, spaced, 0, PA_SIGNAL⟩,
    ⟨.backlightLine, spaced, 1, BACKLIGHT_SIGNAL⟩,
    ⟨.upowerLine, spaced, 0, UPOWER_SIGNAL⟩,
    ⟨.ppdLine, spaced, 0, PPD_SIGNAL⟩,
    ⟨.datetime, calendarIcon, 1, -1⟩ ]

def defaultConfig : Config Component :=
  { interval := 1000, unknownStr := Text.empty, cmdlen := 128, args := args,
    cmdlen_pos := by decide, args_ne_nil := by decide }

def networkRow : Row defaultConfig := ⟨0, by decide⟩

def keymapRow : Row defaultConfig := ⟨2, by decide⟩

def dateRow : Row defaultConfig := ⟨7, by decide⟩

/-- An answer longer than any slot of the default configuration. -/
def longText : Text := ⟨List.replicate 128 0x61, by decide⟩

end SlStatus.DefaultConfig
