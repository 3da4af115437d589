import Ttftp.Proof.Messages
import Ttftp.Proof.Sender
import Ttftp.Proof.Receiver
import Ttftp.Proof.Lockstep
import Ttftp.Proof.Fifo
import Ttftp.Proof.Server
import Ttftp.Proof.Opening
import Ttftp.Proof.Negotiation
import Ttftp.Proof.EndToEnd
import Ttftp.Proof.Discipline
import Ttftp.Proof.Ending
import Ttftp.Proof.Prompt
import Ttftp.Proof.Resends
import Ttftp.Proof.Resolution
import Ttftp.Proof.Uploads
import Ttftp.Proof.RootFolder
import Ttftp.Proof.Assembly
import Ttftp.Proof.Rounds
import Ttftp.Proof.Strangers
import Ttftp.Proof.TransferIds
import Ttftp.Proof.Oversize
import Ttftp.Proof.SocketErrors
import Ttftp.Proof.DataShortcut
import Ttftp.Proof.AckShortcut
import Ttftp.Proof.Grammar
import Ttftp.Proof.Reading
import Ttftp.Proof.DataSize
import Ttftp.Proof.OptionValues
import Ttftp.Proof.FailedStream
import Ttftp.Proof.Registry
import Ttftp.Proof.Strand
import Ttftp.Proof.Pool
import Ttftp.Proof.Correspondents
import Ttftp.Proof.Upload
import Ttftp.Proof.Launch
import Ttftp.Proof.Traffic
