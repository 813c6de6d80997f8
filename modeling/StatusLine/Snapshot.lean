import StatusLine.Config.Decoder
import StatusLine.Config.Encoder
import StatusLine.Json.Document

namespace StatusLine.Snapshot

def write (c : Config) : String := c.json.spreadText

def read (s : String) : Except DocumentError Config := Config.decoder.ofText s

end StatusLine.Snapshot
